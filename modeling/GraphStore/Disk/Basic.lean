import GraphStore.Disk.FileSystem

/-!
# Work on a disk

An operation on files as a value: which question or change comes first, and how it goes on with the
answer. Running it on a file system is one reading of it; others count its changes, stop it between
two of them, or refuse some.
-/

set_option autoImplicit false

namespace GraphStore

/-- A question to a file system. -/
inductive Question where
  /-- Whether a directory or a file stands at a path. -/
  | entry (path : Path)
  /-- The number of bytes of what stands at a path. -/
  | size (path : Path)
  /-- All bytes of a file. -/
  | content (path : Path)
  /-- At most `count` bytes of a file from an offset on. -/
  | slice (path : Path) (offset count : Nat)
  /-- The names in a directory. -/
  | names (path : Path)
  /-- All that lies below a directory, the deepest first, with a mark for directories. -/
  | below (path : Path)
deriving Repr, DecidableEq

namespace Question

def Answer : Question → Type
  | entry _ => Except OsError Bool
  | size _ => Except OsError Nat
  | content _ => Except OsError (List UInt8)
  | slice .. => Except OsError (List UInt8)
  | names _ => Except OsError (List String)
  | below _ => Except OsError (List (Path × Bool))

def answer (system : FileSystem) : (question : Question) → question.Answer
  | entry path => (system.resolve path).map fun found => found.2.isDirectory
  | size path => (system.resolve path).map fun found => system.sizeOf found.1 found.2
  | content path => system.content path
  | slice path offset count =>
      (system.openFile path).map fun found => found.2.slice offset count
  | names path => (system.openDirectory path).map system.names
  | below path =>
      (system.openDirectory path).map fun place =>
        ((system.below place).map fun entry => (entry.1, entry.2.isDirectory)).mergeSort
          fun left right => right.1.length ≤ left.1.length

end Question

/-- Work on a disk that ends with a value. -/
inductive Disk (α : Type) where
  | done (value : α)
  | ask (question : Question) (next : question.Answer → Disk α)
  /-- Attempts a change. -/
  | attempt (change : Change) (next : Except OsError Unit → Disk α)

namespace Disk

def bind {α β : Type} (work : Disk α) (next : α → Disk β) : Disk β :=
  match work with
  | done value => next value
  | ask question rest => ask question fun answer => (rest answer).bind next
  | attempt change rest => attempt change fun outcome => (rest outcome).bind next

instance : Monad Disk where
  pure := done
  bind := bind

/-- The outcome of work, and the file system behind it. -/
def run {α : Type} (work : Disk α) (system : FileSystem) : α × FileSystem :=
  match work with
  | done value => (value, system)
  | ask question next => (next (question.answer system)).run system
  | attempt change next =>
      match system.change change with
      | .ok changed => (next (.ok ())).run changed
      | .error refusal => (next (.error refusal)).run system

/-- Runs work while the system refuses changes for reasons of its own. The changes attempted are
counted from `index`. -/
def runRefusing {α : Type} (refusal : Nat → Change → Option OsError) (index : Nat) (work : Disk α)
    (system : FileSystem) : α × FileSystem :=
  match work with
  | done value => (value, system)
  | ask question next => (next (question.answer system)).runRefusing refusal index system
  | attempt change next =>
      match refusal index change with
      | some reason => (next (.error reason)).runRefusing refusal (index + 1) system
      | none =>
          match system.change change with
          | .ok changed => (next (.ok ())).runRefusing refusal (index + 1) changed
          | .error reason => (next (.error reason)).runRefusing refusal (index + 1) system

/-- The file system after the first `count` changes that work attempts. -/
def interrupted {α : Type} (count : Nat) (work : Disk α) (system : FileSystem) : FileSystem :=
  match work, count with
  | done _, _ => system
  | ask question next, count => (next (question.answer system)).interrupted count system
  | attempt _ _, 0 => system
  | attempt change next, count + 1 =>
      match system.change change with
      | .ok changed => (next (.ok ())).interrupted count changed
      | .error refusal => (next (.error refusal)).interrupted count system

@[simp] theorem run_pure {α : Type} (value : α) (system : FileSystem) :
    (pure value : Disk α).run system = (value, system) := rfl

theorem bind_assoc {α β γ : Type} (work : Disk α) (second : α → Disk β) (third : β → Disk γ) :
    (work.bind second).bind third = work.bind fun value => (second value).bind third := by
  induction work with
  | done value => rfl
  | ask question next ih => simp only [bind, ih]
  | attempt change next ih => simp only [bind, ih]

theorem bind_done {α : Type} (work : Disk α) : work.bind done = work := by
  induction work with
  | done value => rfl
  | ask question next ih => simp only [bind, ih]
  | attempt change next ih => simp only [bind, ih]

instance : LawfulMonad Disk :=
  LawfulMonad.mk' Disk (fun work => bind_done work) (fun _ _ => rfl)
    fun work second third => bind_assoc work second third

/-- Work in two parts runs the second part where the first one ends. -/
@[simp] theorem run_bind {α β : Type} (work : Disk α) (next : α → Disk β) (system : FileSystem) :
    (work >>= next).run system = (next (work.run system).1).run (work.run system).2 := by
  change (work.bind next).run system = _
  induction work generalizing system with
  | done value => rfl
  | ask question rest ih => simp only [bind, run, ih]
  | attempt change rest ih =>
      simp only [bind, run]
      split <;> simp only [ih]

/-!
## Single steps
-/

def isDirectory (path : Path) : Disk (Except OsError Bool) := ask (.entry path) done

def size (path : Path) : Disk (Except OsError Nat) := ask (.size path) done

def content (path : Path) : Disk (Except OsError (List UInt8)) := ask (.content path) done

def slice (path : Path) (offset count : Nat) : Disk (Except OsError (List UInt8)) :=
  ask (.slice path offset count) done

def names (path : Path) : Disk (Except OsError (List String)) := ask (.names path) done

def descendants (path : Path) : Disk (Except OsError (List (Path × Bool))) := ask (.below path) done

def change (change : Change) : Disk (Except OsError Unit) := attempt change done

/-!
## Composed work
-/

/-- Whether anything stands at a path. A path that leads through a file has no answer. -/
def present (path : Path) : Disk (Except OsError Bool) := do
  match ← isDirectory path with
  | .ok _ => return .ok true
  | .error reason => return if reason = .noEntry then .ok false else .error reason

/-- Makes a file with a content, in the place of the one that may be there. -/
def write (path : Path) (bytes : List UInt8) : Disk (Except OsError Unit) := do
  match ← change (.empty path) with
  | .ok () => change (.append path bytes)
  | .error reason => return .error reason

/-- Accepts that a directory could not be made if there is one. -/
def acceptDirectory (path : Path) : Except OsError Unit → Disk (Except OsError Unit)
  | .ok () => return .ok ()
  | .error reason => do
      match ← isDirectory path with
      | .ok true => return .ok ()
      | _ => return .error reason

/-- Makes a directory and those above it that are missing. Of the path, the last `depth` names may
be missing. -/
def makeDirectories : (depth : Nat) → Path → Disk (Except OsError Unit)
  | 0, path => do acceptDirectory path (← change (.makeDirectory path))
  | depth + 1, path => do
      match ← change (.makeDirectory path) with
      | .error reason =>
          if reason = .noEntry then
            match ← makeDirectories depth path.dropLast with
            | .ok () => acceptDirectory path (← change (.makeDirectory path))
            | .error reason => return .error reason
          else acceptDirectory path (.error reason)
      | .ok () => return .ok ()

/-- Makes a directory and all that are missing above it. -/
def makeDirectoryAndAbove (path : Path) : Disk (Except OsError Unit) :=
  makeDirectories path.length path

/-- Removes files and empty directories, one by one, up to the first refusal. -/
def removeEach : List (Path × Bool) → Disk (Except OsError Unit)
  | [] => return .ok ()
  | (path, directory) :: rest => do
      match ← change (if directory then .removeDirectory path else .removeFile path) with
      | .ok () => removeEach rest
      | .error reason => return .error reason

def removeTree (path : Path) : Disk (Except OsError Unit) := do
  match ← descendants path with
  | .error reason => return .error reason
  | .ok entries => removeEach (entries ++ [(path, true)])

end Disk

/-- Work on a disk that may fail. -/
abbrev Action (α : Type) := ExceptT Error Disk α

namespace Action

/-- Work on a file or directory, whose refusal becomes an error that names it. -/
def on {α : Type} (path : Path) (work : Disk (Except OsError α)) : Action α :=
  ExceptT.mk do
    match ← work with
    | .ok value => return .ok value
    | .error cause => return .error (.storeAccess path.text cause)

/-- A computation without access to a disk. -/
def of {α : Type} (result : Except Error α) : Action α := ExceptT.mk (pure result)

/-- The work as one that ends with its success or its failure. -/
def outcome {α : Type} (action : Action α) : Disk (Except Error α) := ExceptT.run action

/-- The outcome of work, and the file system behind it. -/
def runOn {α : Type} (action : Action α) (system : FileSystem) : Except Error α × FileSystem :=
  action.outcome.run system

end Action

end GraphStore
