import GraphStore.Proofs.Disk.Parallel
import GraphStore.Proofs.Disk.Runs

/-!
# File systems that match

Two file systems with the same directories and with files at the same places, of which the contents
need only fit to each other. Main statements: what is asked about anything but contents has the same
answer on both, and the same changes are made or refused on both and leave file systems that match.
-/

set_option autoImplicit false

namespace GraphStore

/-- Whether two directories, or two files with contents that fit to each other. -/
inductive Entry.Matches (fits : List UInt8 → List UInt8 → Prop) : Entry → Entry → Prop where
  | directory : Matches fits .directory .directory
  | file {here there : Content} (fit : fits here.toList there.toList) :
      Matches fits (.file here) (.file there)

theorem Entry.Matches.isDirectory {fits : List UInt8 → List UInt8 → Prop} {here there : Entry}
    (matching : here.Matches fits there) : there.isDirectory = here.isDirectory := by
  cases matching <;> rfl

/-- What a file may hold where it stands, beside what the other file there holds. -/
abbrev Fitting := Path → List UInt8 → List UInt8 → Prop

/-- The changes that look at no content and write none. -/
def Change.IsPlain : Change → Prop
  | .append .. | .overwrite .. | .resize .. | .rename .. => False
  | _ => True

namespace FileSystem

variable {fits : Fitting} {system other : FileSystem}

/-- Whether the same place is listed with entries that match. -/
def Pairs (fits : Fitting) (here there : Path × Entry) : Prop :=
  here.1 = there.1 ∧ here.2.Matches (fits here.1) there.2

/-- Whether two file systems list the same places, with contents that fit to each other. -/
def Matches (fits : Fitting) (system other : FileSystem) : Prop :=
  List.Forall₂ (Pairs fits) system.entries other.entries

/-!
## Following paths
-/

/-- Whether a directory stands at a place, if anything does. -/
def shape? (system : FileSystem) (place : Path) : Option Bool :=
  (system.entry? place).map Entry.isDirectory

/-- Following a path asks for nothing but where the directories are. -/
theorem follow_congr (same : ∀ place, other.shape? place = system.shape? place) (reached : Path)
    (names : List String) : other.follow reached names = system.follow reached names := by
  induction names generalizing reached with
  | nil => rfl
  | cons name rest ih =>
      have here := same reached
      rw [shape?, shape?] at here
      rw [follow, follow]
      cases stands : system.entry? reached with
      | none =>
          rw [stands, Option.map_none, Option.map_eq_none_iff] at here
          rw [here]
      | some entry =>
          rw [stands, Option.map_some, Option.map_eq_some_iff] at here
          obtain ⟨found, standsThere, kind⟩ := here
          rw [standsThere]
          cases entry with
          | file =>
              cases found with
              | file => rfl
              | directory => cases kind
          | directory =>
              cases found with
              | file => cases kind
              | directory => simp only [ih]

theorem locate_congr (same : ∀ place, other.shape? place = system.shape? place) (path : Path) :
    other.locate path = system.locate path := by
  rw [locate, locate, follow_congr same]

theorem matches_refl (reflexive : ∀ place bytes, fits place bytes bytes) (system : FileSystem) :
    system.Matches fits system := by
  apply List.forall₂_same.mpr
  rintro ⟨place, entry⟩ -
  cases entry with
  | directory => exact ⟨rfl, .directory⟩
  | file content => exact ⟨rfl, .file (reflexive place content.toList)⟩

namespace Matches

theorem entry? (matching : system.Matches fits other) (place : Path) :
    Option.Rel (Entry.Matches (fits place)) (system.entry? place) (other.entry? place) := by
  by_cases deep : place = []
  · subst deep
    exact .some .directory
  · rw [entry?_of_ne_nil _ deep, entry?_of_ne_nil _ deep]
    unfold Matches at matching
    generalize system.entries = entries, other.entries = others at matching ⊢
    induction matching with
    | nil => exact .none
    | @cons here there _ _ pairs _ ih =>
        rw [List.find?_cons, List.find?_cons, ← pairs.1]
        by_cases same : here.1 = place
        · subst same
          simp only [BEq.rfl]
          exact .some pairs.2
        · have passed : (here.1 == place) = false := by simpa using same
          simp only [passed]
          exact ih

theorem shape?_eq (matching : system.Matches fits other) (place : Path) :
    other.shape? place = system.shape? place := by
  have pairs := matching.entry? place
  rw [shape?, shape?]
  cases here : system.entry? place with
  | none =>
      rw [here] at pairs
      cases there : other.entry? place with
      | none => rfl
      | some => rw [there] at pairs; cases pairs
  | some entry =>
      rw [here] at pairs
      cases there : other.entry? place with
      | none => rw [there] at pairs; cases pairs
      | some found =>
          rw [there] at pairs
          cases pairs with
          | some both => exact congrArg some both.isDirectory

theorem locate_eq (matching : system.Matches fits other) (path : Path) :
    other.locate path = system.locate path := locate_congr matching.shape?_eq path

theorem resolve (matching : system.Matches fits other) (path : Path) :
    Agree (fun here there => system.locate path = .ok here.1 ∧ system.entry? here.1 = some here.2 ∧
        other.entry? there.1 = some there.2 ∧ Pairs fits here there)
      (system.resolve path) (other.resolve path) := by
  rw [FileSystem.resolve, FileSystem.resolve, matching.locate_eq]
  cases located : system.locate path with
  | error reason => exact .error reason
  | ok place =>
      have pairs := matching.entry? place
      simp only [bind, Except.bind]
      cases here : system.entry? place with
      | none =>
          rw [here] at pairs
          cases there : other.entry? place with
          | none => exact .error OsError.noEntry
          | some => rw [there] at pairs; cases pairs
      | some entry =>
          rw [here] at pairs
          cases there : other.entry? place with
          | none => rw [there] at pairs; cases pairs
          | some found =>
              rw [there] at pairs
              cases pairs with
              | some both => exact .ok ⟨rfl, here, there, rfl, both⟩

theorem openFile (matching : system.Matches fits other) (path : Path) :
    Agree (fun here there => here.1 = there.1 ∧ system.HasFile path here.1 here.2 ∧
        other.HasFile path there.1 there.2 ∧ fits here.1 here.2.toList there.2.toList)
      (system.openFile path) (other.openFile path) := by
  refine (matching.resolve path).bind ?_
  rintro ⟨place, entry⟩ ⟨_, found⟩ ⟨located, here, there, rfl, both⟩
  cases both with
  | directory => exact .error OsError.isDirectory
  | file fit =>
      exact .ok ⟨rfl, ⟨located, here⟩, ⟨(matching.locate_eq path).trans located, there⟩, fit⟩

theorem openDirectory (matching : system.Matches fits other) (path : Path) :
    Agree Eq (system.openDirectory path) (other.openDirectory path) := by
  refine (matching.resolve path).bind ?_
  rintro ⟨place, entry⟩ ⟨_, found⟩ ⟨located, here, there, rfl, both⟩
  cases both with
  | directory => exact .ok rfl
  | file => exact .error OsError.notDirectory

theorem locateVacant (matching : system.Matches fits other) (path : Path) :
    Agree Eq (system.locateVacant path) (other.locateVacant path) := by
  have shapes (place : Path) : (other.entry? place).isSome = (system.entry? place).isSome := by
    have same := congrArg Option.isSome (matching.shape?_eq place)
    simpa only [shape?, Option.isSome_map] using same
  rw [FileSystem.locateVacant, FileSystem.locateVacant, matching.locate_eq]
  simp only [shapes]
  exact .same _

/-!
## Lists of places
-/

theorem outline (matching : system.Matches fits other) :
    other.entries.map (fun entry => (entry.1, entry.2.isDirectory)) =
      system.entries.map fun entry => (entry.1, entry.2.isDirectory) := by
  unfold Matches at matching
  generalize system.entries = entries, other.entries = others at matching ⊢
  induction matching with
  | nil => rfl
  | cons pairs _ ih => rw [List.map_cons, List.map_cons, ih, pairs.1, pairs.2.isDirectory]

theorem below (matching : system.Matches fits other) (place : Path) :
    (other.below place).map (fun entry => (entry.1, entry.2.isDirectory)) =
      (system.below place).map fun entry => (entry.1, entry.2.isDirectory) := by
  have same := congrArg (List.filter fun entry => isBelow place entry.1) matching.outline
  rwa [List.filter_map, List.filter_map] at same

theorem isEmpty_below (matching : system.Matches fits other) (place : Path) :
    (other.below place).isEmpty = (system.below place).isEmpty := by
  have same := congrArg List.isEmpty (matching.below place)
  rwa [List.isEmpty_map, List.isEmpty_map] at same

theorem names (matching : system.Matches fits other) (place : Path) :
    other.names place = system.names place := by
  have same := congrArg (List.filterMap fun entry =>
    if isBelow place entry.1 && entry.1.length == place.length + 1 then entry.1.getLast?
    else none) matching.outline
  rw [List.filterMap_map, List.filterMap_map] at same
  exact congrArg (List.mergeSort · _) same

/-!
## Changed entries
-/

private theorem filter_pairs (matching : system.Matches fits other) (keep : Path → Bool) :
    List.Forall₂ (fun here there => Pairs fits here there ∧ keep here.1 = true)
      (system.entries.filter (keep ·.1)) (other.entries.filter (keep ·.1)) := by
  unfold Matches at matching
  generalize system.entries = entries, other.entries = others at matching ⊢
  induction matching with
  | nil => exact .nil
  | @cons here there _ _ pairs _ ih =>
      simp only [List.filter_cons, ← pairs.1]
      split
      next kept => exact .cons ⟨pairs, kept⟩ ih
      next => exact ih

theorem filter (matching : system.Matches fits other) (keep : Path → Bool) :
    Matches fits ⟨system.entries.filter (keep ·.1)⟩ ⟨other.entries.filter (keep ·.1)⟩ :=
  (matching.filter_pairs keep).imp fun _ _ both => both.1

theorem drop (matching : system.Matches fits other) (place : Path) :
    Matches fits (system.drop place) (other.drop place) := matching.filter (· != place)

theorem put (matching : system.Matches fits other) {place : Path} {here there : Entry}
    (both : here.Matches (fits place) there) :
    Matches fits (system.put place here) (other.put place there) :=
  .cons ⟨rfl, both⟩ (matching.drop place)

theorem move (matching : system.Matches fits other) {source target : Path}
    (moves : ∀ rest left right, fits (source ++ rest) left right → fits (target ++ rest) left right) :
    Matches fits (system.move source target) (other.move source target) := by
  have stay := matching.filter fun place => place != target && !source.isPrefixOf place
  have under := matching.filter_pairs fun place => source.isPrefixOf place
  refine List.rel_append stay ?_
  rw [List.forall₂_map_left_iff, List.forall₂_map_right_iff]
  refine under.imp ?_
  rintro ⟨place, here⟩ ⟨_, there⟩ ⟨⟨rfl, both⟩, isBelow⟩
  obtain ⟨rest, rfl⟩ := List.isPrefixOf_iff_prefix.mp isBelow
  refine ⟨rfl, ?_⟩
  simp only [List.drop_left]
  cases both with
  | directory => exact .directory
  | file fit => exact .file (moves rest _ _ fit)

/-!
## Changes
-/

theorem change (matching : system.Matches fits other) (empty : ∀ place, fits place [] [])
    {change : Change} (plain : change.IsPlain) :
    Agree (Matches fits) (system.change change) (other.change change) := by
  cases change with
  | append | overwrite | resize | rename => exact plain.elim
  | makeDirectory path =>
      refine (matching.locateVacant path.trimmed).bind ?_
      rintro place _ rfl
      exact .ok (matching.put .directory)
  | makeFile path =>
      refine (matching.locateVacant path).bind ?_
      rintro place _ rfl
      exact .ok (matching.put (.file (empty place)))
  | empty path =>
      rw [FileSystem.change, FileSystem.change, matching.locate_eq]
      cases system.locate path with
      | error reason => exact .error reason
      | ok place =>
          have made : Agree (Matches fits) (.ok (system.put place (.file .empty)) : Except OsError _)
              (.ok (other.put place (.file .empty))) := .ok (matching.put (.file (empty place)))
          have pairs := matching.entry? place
          simp only [bind, Except.bind]
          generalize system.entry? place = here, other.entry? place = there at pairs
          cases pairs with
          | none => exact made
          | some both =>
              cases both with
              | directory => exact .error OsError.isDirectory
              | file => exact made
  | removeFile path =>
      refine (matching.openFile path).bind ?_
      rintro ⟨place, here⟩ ⟨_, there⟩ ⟨rfl, -⟩
      exact .ok (matching.drop place)
  | removeDirectory path =>
      refine (matching.openDirectory path).bind ?_
      rintro place _ rfl
      simp only [matching.isEmpty_below]
      split
      next => exact .ok (matching.drop place)
      next => exact .error OsError.directoryNotEmpty

theorem checkReplaceable (matching : system.Matches fits other) {here there : Entry}
    {fit : List UInt8 → List UInt8 → Prop} (both : here.Matches fit there) (target : Path) :
    other.checkReplaceable there target = system.checkReplaceable here target := by
  have pairs := matching.entry? target
  unfold FileSystem.checkReplaceable
  generalize system.entry? target = former, other.entry? target = latter at pairs ⊢
  cases pairs with
  | none => cases both <;> rfl
  | some standing => cases both <;> cases standing <;> simp only [matching.isEmpty_below]

theorem rename (matching : system.Matches fits other) {source target : Path}
    (moves : ∀ rest left right, fits (source ++ rest) left right → fits (target ++ rest) left right) :
    Agree (Matches fits) (system.rename source target) (other.rename source target) := by
  have pairs := matching.entry? source
  rw [FileSystem.rename, FileSystem.rename]
  generalize system.entry? source = here, other.entry? source = there at pairs
  cases pairs with
  | none => exact .error OsError.noEntry
  | some both =>
      dsimp only
      split
      next => exact .error OsError.invalidArgument
      next =>
        split
        next => exact .error OsError.directoryNotEmpty
        next =>
          split
          next => exact .ok matching
          next =>
            rw [matching.checkReplaceable both]
            exact (Agree.same _).bind fun _ _ _ => .ok (matching.move moves)

theorem change_rename (matching : system.Matches fits other) {source target : Path}
    (moves : ∀ origin goal, system.locate source = .ok origin → system.locate target = .ok goal →
      ∀ rest left right, fits (origin ++ rest) left right → fits (goal ++ rest) left right) :
    Agree (Matches fits) (system.change (.rename source target))
      (other.change (.rename source target)) := by
  rw [FileSystem.change, FileSystem.change, matching.locate_eq, matching.locate_eq]
  cases located : system.locate source with
  | error reason => exact .error reason
  | ok origin =>
      cases locatedTarget : system.locate target with
      | error reason => exact .error reason
      | ok goal => exact matching.rename (moves origin goal located locatedTarget)

end Matches

end FileSystem

/-!
## Work that looks at no content
-/

/-- The questions about anything but contents. -/
def Question.IsPlain : Question → Prop
  | .content _ | .slice .. => False
  | _ => True

/-- What holds of all contents that fit to each other: they are as long, and empty files fit. -/
structure Fitting.IsEven (fits : Fitting) : Prop where
  length : ∀ place left right, fits place left right → left.length = right.length
  empty : ∀ place, fits place [] []

theorem FileSystem.Matches.answer {fits : Fitting} {system other : FileSystem}
    (matching : system.Matches fits other) (even : fits.IsEven) {question : Question}
    (plain : question.IsPlain) : question.answer system = question.answer other := by
  cases question with
  | content | slice => exact plain.elim
  | entry path =>
      refine ((matching.resolve path).map ?_).eq
      exact fun _ _ found => found.2.2.2.2.isDirectory.symm
  | size path =>
      refine ((matching.resolve path).map ?_).eq
      rintro ⟨place, here⟩ ⟨_, there⟩ ⟨-, -, -, rfl, both⟩
      cases both with
      | directory => simp only [FileSystem.sizeOf, matching.names]
      | file fit =>
          simp only [FileSystem.sizeOf, Content.size_eq_length]
          exact even.length _ _ _ fit
  | names path =>
      refine ((matching.openDirectory path).map ?_).eq
      rintro place _ rfl
      exact (matching.names place).symm
  | below path =>
      refine ((matching.openDirectory path).map ?_).eq
      rintro place _ rfl
      exact congrArg (List.mergeSort · _) (matching.below place).symm

namespace Disk

variable {α β : Type} {fits : Fitting}

/-- Whether work looks at no content and writes none. -/
def IsPlain : Disk α → Prop
  | done _ => True
  | ask question next => question.IsPlain ∧ ∀ answer, (next answer).IsPlain
  | attempt change next => change.IsPlain ∧ ∀ outcome, (next outcome).IsPlain

theorem IsPlain.bind {work : Disk α} {next : α → Disk β} (plain : work.IsPlain)
    (rest : ∀ value, (next value).IsPlain) : (work >>= next).IsPlain := by
  induction work with
  | done value => exact rest value
  | ask question onward ih => exact ⟨plain.1, fun answer => ih answer (plain.2 answer)⟩
  | attempt change onward ih => exact ⟨plain.1, fun outcome => ih outcome (plain.2 outcome)⟩

theorem IsPlain.parallel {work : Disk α} (plain : work.IsPlain) (even : fits.IsEven) :
    work.Parallel (FileSystem.Matches fits) Eq work := by
  induction work with
  | done value => exact .pure rfl
  | ask question next ih =>
      have asked : Disk.Parallel (FileSystem.Matches fits) Eq (.ask question .done)
          (.ask question .done) := .ask fun _ _ matching => matching.answer even plain.1
      refine asked.bind ?_
      rintro answer _ rfl
      exact ih answer (plain.2 answer)
  | attempt change next ih =>
      have changed : Disk.Parallel (FileSystem.Matches fits) Eq (Disk.change change)
          (Disk.change change) := .change fun _ _ matching => matching.change even.empty plain.1
      refine changed.bind ?_
      rintro outcome _ rfl
      exact ih outcome (plain.2 outcome)

theorem isPlain_present (path : Path) : (present path).IsPlain := by
  refine ⟨trivial, fun answer => ?_⟩
  cases answer <;> trivial

theorem isPlain_acceptDirectory (path : Path) (outcome : Except OsError Unit) :
    (acceptDirectory path outcome).IsPlain := by
  cases outcome with
  | ok => trivial
  | error reason =>
      refine ⟨trivial, fun answer => ?_⟩
      cases answer with
      | error => trivial
      | ok directory => cases directory <;> trivial

theorem isPlain_makeDirectories (depth : Nat) (path : Path) :
    (makeDirectories depth path).IsPlain := by
  induction depth generalizing path with
  | zero => exact ⟨trivial, isPlain_acceptDirectory path⟩
  | succ depth ih =>
      refine ⟨trivial, fun outcome => ?_⟩
      cases outcome with
      | ok => trivial
      | error reason =>
          change IsPlain (if reason = .noEntry then _ else acceptDirectory path (.error reason))
          split
          next =>
            refine (ih path.dropLast).bind fun made => ?_
            cases made with
            | ok => exact ⟨trivial, isPlain_acceptDirectory path⟩
            | error => trivial
          next => exact isPlain_acceptDirectory path _

theorem isPlain_removeEach (entries : List (Path × Bool)) : (removeEach entries).IsPlain := by
  induction entries with
  | nil => trivial
  | cons entry rest ih =>
      obtain ⟨path, directory⟩ := entry
      cases directory <;>
        refine ⟨trivial, fun outcome => ?_⟩ <;>
        cases outcome with
        | ok => exact ih
        | error => trivial

theorem isPlain_removeTree (path : Path) : (removeTree path).IsPlain := by
  refine ⟨trivial, fun answer => ?_⟩
  cases answer with
  | error => trivial
  | ok entries => exact isPlain_removeEach _

theorem isPlain_names (path : Path) : (names path).IsPlain := ⟨trivial, fun _ => trivial⟩

/-!
## Files that are written as a whole
-/

theorem parallel_write (even : fits.IsEven) {path : Path} {left right : List UInt8}
    (fit : ∀ (system : FileSystem) place, system.locate path = .ok place → fits place left right) :
    Disk.Parallel (FileSystem.Matches fits) Eq (write path left) (write path right) := by
  intro system other matching
  have plain : (Change.empty path).IsPlain := trivial
  have agree := matching.change even.empty plain
  rw [write, write, run_bind, run_bind, change, run, run]
  generalize here : system.change (.empty path) = outcome,
    there : other.change (.empty path) = result at agree
  cases agree with
  | error reason => exact ⟨rfl, matching⟩
  | @ok later last changed =>
      -- The file is empty here, which no relation says that holds before and after the work.
      obtain ⟨place, located, noDirectory, rfl⟩ := FileSystem.put_of_change_empty here
      obtain ⟨again, locatedThere, noDirectoryThere, rfl⟩ := FileSystem.put_of_change_empty there
      rw [matching.locate_eq, located] at locatedThere
      obtain rfl := Except.ok.inj locatedThere
      have file := FileSystem.hasFile_put located noDirectory .empty
      have fileThere := FileSystem.hasFile_put
        ((matching.locate_eq path).trans located) noDirectoryThere .empty
      dsimp only [run]
      rw [run_change (file.change_append left), run_change (fileThere.change_append right)]
      refine ⟨rfl, changed.put (.file ?_)⟩
      rw [Content.toList_append, Content.toList_append]
      exact fit system place located

end Disk

end GraphStore
