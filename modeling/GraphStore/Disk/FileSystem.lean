import GraphStore.Bytes.Pieces
import GraphStore.Disk.Content
import GraphStore.Error

/-!
# File systems

A file system as a value: files and directories by their places. A path is first followed to a
place, and this can fail; every change then either succeeds as a whole or is refused with the
system's error and alters nothing.
-/

set_option autoImplicit false

namespace GraphStore

/-- The names on the way to a file or directory, as they are written between slashes. -/
abbrev Path := List String

namespace Path

def text (path : Path) : String := "/".intercalate path

def ofText (text : String) : Path :=
  if text.isEmpty then [] else (pieces '/' text.toList).map String.ofList

/-- The path that a text names to a reader in a directory. A slash in front leads to the root. -/
def ofTextIn (directory : Path) (text : String) : Path :=
  let path := ofText text
  if path.head? = some "" then path else directory ++ path

/-- The path of a name in the directory at a path, which may be written with a slash at its end. -/
def child (path : Path) (name : String) : Path :=
  (if path.getLast? = some "" then path.dropLast else path) ++ [name]

/-- The path without slashes at its end. -/
def trimmed (path : Path) : Path := (path.reverse.dropWhile (· == "")).reverse

@[simp] theorem getLast?_child (path : Path) (name : String) :
    (path.child name).getLast? = some name := by
  simp [child]

theorem child_eq_append {path : Path} (name : String) (noSlash : path.getLast? ≠ some "") :
    path.child name = path ++ [name] := by
  simp [child, noSlash]

theorem trimmed_eq_self {path : Path} (noSlash : path.getLast? ≠ some "") :
    path.trimmed = path := by
  rw [← List.head?_reverse] at noSlash
  rw [trimmed]
  cases reversed : path.reverse with
  | nil => simpa using reversed
  | cons last rest =>
      have filled : last ≠ "" := by simpa [reversed] using noSlash
      rw [List.dropWhile_cons_of_neg (by simpa using filled), ← reversed, List.reverse_reverse]

end Path

/-- What stands at a place. -/
inductive Entry where
  | directory
  | file (content : Content)
deriving Repr, DecidableEq, Inhabited

def Entry.isDirectory : Entry → Bool
  | directory => true
  | file _ => false

/-- Files and directories by place: the names on the shortest way from the root. The root is always
a directory and is not listed. -/
structure FileSystem where
  entries : List (Path × Entry)
deriving Repr, Inhabited

namespace FileSystem

def entry? (system : FileSystem) (place : Path) : Option Entry :=
  if place.isEmpty then some .directory
  else (system.entries.find? (·.1 == place)).map Prod.snd

def put (system : FileSystem) (place : Path) (entry : Entry) : FileSystem :=
  ⟨(place, entry) :: system.entries.filter (·.1 != place)⟩

/-- The system without the entry at a place. -/
def drop (system : FileSystem) (place : Path) : FileSystem :=
  ⟨system.entries.filter (·.1 != place)⟩

def isBelow (directory place : Path) : Bool := directory.isPrefixOf place && place != directory

def below (system : FileSystem) (directory : Path) : List (Path × Entry) :=
  system.entries.filter fun entry => isBelow directory entry.1

def names (system : FileSystem) (directory : Path) : List String :=
  (system.entries.filterMap fun entry =>
    if isBelow directory entry.1 && entry.1.length == directory.length + 1 then entry.1.getLast?
    else none).mergeSort

/-- The number of bytes of an entry. A directory takes 20 for each of its names, and as many for
itself and for the way back. -/
def sizeOf (system : FileSystem) (place : Path) : Entry → Nat
  | .file content => content.size
  | .directory => 20 * (2 + (system.names place).length)

/-!
## Following paths
-/

/-- The greatest number of bytes in a name. -/
def nameLimit : Nat := 255

def pathLimit : Nat := 4096

/-- The place to which names lead from a place that is already reached. Whatever a name is looked
up in must be a directory. Two dots lead back; one dot, or nothing between two slashes, stays. -/
def follow (system : FileSystem) (reached : Path) : (names : List String) → Except OsError Path
  | [] => .ok reached
  | name :: rest =>
      match system.entry? reached with
      | none => .error .noEntry
      | some (.file _) => .error .notDirectory
      | some .directory =>
          if name = "" || name = "." then system.follow reached rest
          else if name = ".." then system.follow reached.dropLast rest
          else if nameLimit < name.utf8ByteSize then .error .nameTooLong
          else system.follow (reached ++ [name]) rest

/-- The place to which a path leads, whether anything stands there or not. -/
def locate (system : FileSystem) (path : Path) : Except OsError Path :=
  if path.any (·.toList.contains '\x00') then .error .zeroInName
  else if pathLimit ≤ path.text.utf8ByteSize then .error .nameTooLong
  else system.follow [] path

def isStep (name : String) : Bool :=
  name != "" && name != "." && name != ".." && name.utf8ByteSize ≤ nameLimit

/-- Names that lead down through directories lead to the place that they spell. -/
theorem follow_eq_append (system : FileSystem) (reached names : Path)
    (steps : ∀ name ∈ names, isStep name)
    (directories : ∀ depth < names.length,
      system.entry? (reached ++ names.take depth) = some .directory) :
    system.follow reached names = .ok (reached ++ names) := by
  induction names generalizing reached with
  | nil => simp [follow]
  | cons name rest ih =>
      have here := directories 0 (by simp)
      have step := steps name List.mem_cons_self
      simp only [isStep, Bool.and_eq_true, bne_iff_ne, ne_eq, decide_eq_true_eq] at step
      obtain ⟨⟨⟨filled, oneDot⟩, twoDots⟩, short⟩ := step
      simp only [List.take_zero, List.append_nil] at here
      have onward := ih (reached ++ [name])
        (fun other member => steps other (List.mem_cons_of_mem _ member))
        (fun depth inside => by simpa using directories (depth + 1) (by simpa using inside))
      rw [follow, here]
      simp only [filled, oneDot, twoDots, decide_false, Bool.or_self, Bool.false_eq_true,
        ↓reduceIte, Nat.not_lt.mpr short]
      simpa using onward

/-- The place to which a path leads and what stands there, or why nothing does. -/
def resolve (system : FileSystem) (path : Path) : Except OsError (Path × Entry) := do
  let place ← system.locate path
  match system.entry? place with
  | some entry => return (place, entry)
  | none => throw .noEntry

def openFile (system : FileSystem) (path : Path) : Except OsError (Path × Content) := do
  match ← system.resolve path with
  | (place, .file content) => return (place, content)
  | (_, .directory) => throw .isDirectory

def content (system : FileSystem) (path : Path) : Except OsError (List UInt8) :=
  (system.openFile path).map fun found => found.2.toList

def openDirectory (system : FileSystem) (path : Path) : Except OsError Path := do
  match ← system.resolve path with
  | (place, .directory) => return place
  | (_, .file _) => throw .notDirectory

def locateVacant (system : FileSystem) (path : Path) : Except OsError Path := do
  let place ← system.locate path
  if (system.entry? place).isSome then throw .alreadyExists
  return place

end FileSystem

/-- A single change of a file system. -/
inductive Change where
  | makeDirectory (path : Path)
  /-- Makes an empty file where nothing stands. -/
  | makeFile (path : Path)
  /-- Makes an empty file, or empties the one that is there. -/
  | empty (path : Path)
  | append (path : Path) (bytes : List UInt8)
  /-- Writes over the bytes from an offset on. Zeros fill a gap behind the former end. -/
  | overwrite (path : Path) (offset : Nat) (bytes : List UInt8)
  /-- Cuts a file or fills it up with zeros. -/
  | resize (path : Path) (size : Nat)
  /-- Moves a file or a directory, in the place of what may stand there. -/
  | rename (source target : Path)
  | removeFile (path : Path)
  | removeDirectory (path : Path)
deriving Repr, DecidableEq

namespace FileSystem

def move (system : FileSystem) (source target : Path) : FileSystem :=
  let stays := system.entries.filter fun entry => entry.1 != target && !source.isPrefixOf entry.1
  let moves := system.entries.filter fun entry => source.isPrefixOf entry.1
  ⟨stays ++ moves.map fun entry => (target ++ entry.1.drop source.length, entry.2)⟩

def checkReplaceable (system : FileSystem) (entry : Entry) (target : Path) :
    Except OsError Unit :=
  match entry, system.entry? target with
  | _, none => .ok ()
  | .file _, some (.file _) => .ok ()
  | .file _, some .directory => .error .isDirectory
  | .directory, some (.file _) => .error .notDirectory
  | .directory, some .directory =>
      if (system.below target).isEmpty then .ok () else .error .directoryNotEmpty

def rename (system : FileSystem) (source target : Path) : Except OsError FileSystem := do
  let some entry := system.entry? source | throw .noEntry
  if isBelow source target then throw .invalidArgument
  if isBelow target source then throw .directoryNotEmpty
  if source = target then return system
  system.checkReplaceable entry target
  return system.move source target

/-- The system after a change, or why the change is refused. -/
def change (system : FileSystem) : Change → Except OsError FileSystem
  | .makeDirectory path => do
      return system.put (← system.locateVacant path.trimmed) .directory
  | .makeFile path => do
      return system.put (← system.locateVacant path) (.file .empty)
  | .empty path => do
      let place ← system.locate path
      match system.entry? place with
      | some .directory => throw .isDirectory
      | _ => return system.put place (.file .empty)
  | .append path bytes => do
      let (place, content) ← system.openFile path
      return system.put place (.file (content.append bytes))
  | .overwrite path offset bytes => do
      let (place, content) ← system.openFile path
      return system.put place (.file (content.overwrite offset bytes))
  | .resize path size => do
      let (place, content) ← system.openFile path
      return system.put place (.file (content.resize size))
  | .rename source target => do
      system.rename (← system.locate source) (← system.locate target)
  | .removeFile path => do
      return system.drop (← system.openFile path).1
  | .removeDirectory path => do
      let place ← system.openDirectory path
      if (system.below place).isEmpty then return system.drop place
      else throw .directoryNotEmpty

/-- The system in which there is nothing but the directories on the way to a place. -/
def ofDirectory (place : Path) : FileSystem :=
  ⟨(List.range place.length).map fun depth => (place.take (depth + 1), .directory)⟩

end FileSystem

end GraphStore
