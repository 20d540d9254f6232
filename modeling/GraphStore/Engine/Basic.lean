import GraphStore.Catalog
import GraphStore.Collection.Basic
import GraphStore.Json.Fields

/-!
# Databases

A database is a directory with a catalog and one directory for each collection. Collections are
made and deleted so that the catalog on disk never lists one that is not complete.
-/

set_option autoImplicit false

namespace GraphStore

/-- The settings of an engine. -/
structure EngineOptions where
  /-- The byte order of new files. -/
  endian : Endian
  /-- Whether every write waits until the disk has it. -/
  syncWrites : Bool
deriving Repr, DecidableEq, Inhabited

namespace EngineOptions

def toJson (options : EngineOptions) : Json :=
  .ofMembers
    [("endian", .ofString options.endian.name), ("sync_writes", .bool options.syncWrites)]

def ofJson? (json : Json) : Option EngineOptions :=
  match json.fields? ["endian", "sync_writes"] with
  | some [some endian, some syncWrites] => do
      return {
        endian := ← Endian.ofName? (← endian.choice?)
        syncWrites := ← syncWrites.bool? }
  | _ => none

end EngineOptions

/-- An open database. -/
structure Engine where
  root : Path
  options : EngineOptions
  catalog : Catalog
deriving Repr, DecidableEq

namespace Engine

/-- Opens the database in a directory. The directory and an empty catalog are made if they are
missing. -/
def openAt (root : Path) (options : EngineOptions) (now : Int64) : Action Engine := do
  let made ← ExceptT.lift (Disk.makeDirectoryAndAbove root)
  if let .error cause := made then
    throw (.initialization s!"cannot create {root.text}: {cause.message}")
  return { root, options, catalog := ← Catalog.loadOrCreate root now }

/-- The names of the collections in the order in which they were made. -/
def collections (engine : Engine) : List String := engine.catalog.names

def hasCollection (engine : Engine) (name : String) : Bool := engine.catalog.contains name

def directory (engine : Engine) (name : String) : Path := engine.root.child name

/-- Removes the directory of a collection that is no longer listed. A directory that holds anything
but store files by name is left as it is. -/
def clearLeftover (directory : Path) : Action Unit := do
  match ← ExceptT.lift (Disk.names directory) with
  | .error _ => return ()
  | .ok names =>
      if names.all fun name => StoreKind.all.any (·.fileName == name) then
        .on directory (Disk.removeTree directory)

/-- Makes the files of a collection in a new directory. After a failure the directory is removed. -/
def makeStore (engine : Engine) (order : List Collection.Making) (directory : Path) :
    Action Unit := do
  .on directory (Disk.change (.makeDirectory directory))
  tryCatch ((Collection.mk directory).makeFilesIn order engine.options.endian) fun error => do
    let _ ← ExceptT.lift (Disk.removeTree directory)
    throw error

/-- The checks and the work on disk before a new collection is listed. -/
def prepareCollection (engine : Engine) (order : List Collection.Making) (name : String) :
    Action Unit := do
  Action.of (checkCollectionName name)
  match ← ExceptT.lift (Disk.present engine.root) with
  | .ok true => pure ()
  | _ => throw (.databaseMissing engine.root.text)
  if engine.hasCollection name then throw (.collectionExists name)
  clearLeftover (engine.directory name)
  engine.makeStore order (engine.directory name)

def createCollectionIn (engine : Engine) (order : List Collection.Making) (now : Int64)
    (name : String) : Disk (Except Error Unit × Engine) := do
  match ← (engine.prepareCollection order name).outcome with
  | .error error => return (.error error, engine)
  | .ok () =>
      match engine.catalog.add now name with
      | .error error => return (.error error, engine)
      | .ok listed =>
          match ← listed.flush.outcome with
          | .ok () => return (.ok (), { engine with catalog := listed })
          | .error error => do
              let _ ← Disk.removeTree (engine.directory name)
              let unlisted := (listed.remove now name).toOption.getD listed
              return (.error error, { engine with catalog := unlisted })

def createCollection (engine : Engine) (now : Int64) (name : String) :
    Disk (Except Error Unit × Engine) :=
  engine.createCollectionIn Collection.makingOrder now name

/-- Removes the directory of a collection, if it is there. -/
def removeStore (directory : Path) : Action Unit := ExceptT.mk do
  match ← Disk.removeTree directory with
  | .ok () => return .ok ()
  | .error cause =>
      return if cause = .noEntry then .ok () else .error (.storeAccess directory.text cause)

/-- Deletes a collection: it is taken from the catalog first, and then its directory is removed. If
the catalog cannot be written, the name is listed again, at the end. -/
def deleteCollection (engine : Engine) (now : Int64) (name : String) :
    Disk (Except Error Unit × Engine) := do
  match engine.catalog.remove now name with
  | .error error => return (.error error, engine)
  | .ok unlisted =>
      match ← unlisted.flush.outcome with
      | .ok () =>
          let removed ← (removeStore (engine.directory name)).outcome
          return (removed, { engine with catalog := unlisted })
      | .error error =>
          match unlisted.add now name with
          | .ok listed => return (.error error, { engine with catalog := listed })
          | .error refused => return (.error refused, { engine with catalog := unlisted })

def collection (engine : Engine) (name : String) : Except Error Collection :=
  if engine.hasCollection name then .ok ⟨engine.directory name⟩
  else .error (.collectionNotFound name)

end Engine

end GraphStore
