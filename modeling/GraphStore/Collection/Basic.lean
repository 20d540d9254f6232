import GraphStore.Store.File

/-!
# The files of a collection

A collection keeps its records in a directory of eight files.
-/

set_option autoImplicit false

namespace GraphStore

/-- Makes a file without records. -/
def StoreKind.createFile (kind : StoreKind) (path : Path) (endian : Endian) : Action Unit := do
  .on path (Disk.change (.makeFile path))
  .on path (Disk.change (.append path (StoreHeader.fresh kind endian).encode))

/-- The files of a collection. -/
structure Collection where
  directory : Path
deriving Repr, DecidableEq

namespace Collection

def pathOf (collection : Collection) (kind : StoreKind) : Path :=
  collection.directory.child kind.fileName

/-!
## Making the files
-/

/-- A step in making the files of a collection. -/
inductive Making where
  | file (kind : StoreKind)
  /-- Writes the header into a file that is already made. -/
  | header (kind : StoreKind)
deriving Repr, DecidableEq

/-- Every file is made and gets its header, one file after the other. -/
def makingOrder : List Making := StoreKind.all.flatMap fun kind => [.file kind, .header kind]

/-- Whether steps make every file once and write its header later, in whatever order. -/
def IsMakingOrder (steps : List Making) : Prop :=
  steps.Perm makingOrder ∧ ∀ kind, steps.idxOf (.file kind) < steps.idxOf (.header kind)

def make (collection : Collection) (endian : Endian) : Making → Action Unit
  | .file kind =>
      let path := collection.pathOf kind
      .on path (Disk.change (.makeFile path))
  | .header kind =>
      let path := collection.pathOf kind
      .on path (Disk.change (.append path (StoreHeader.fresh kind endian).encode))

/-- Makes the files in a given order, up to the first failure. -/
def makeFilesIn (collection : Collection) (order : List Making) (endian : Endian) : Action Unit :=
  order.forM (collection.make endian)

def makeFiles (collection : Collection) (endian : Endian) : Action Unit :=
  collection.makeFilesIn makingOrder endian

/-- The files of a collection are made one after the other. -/
theorem makeFiles_eq_forM (collection : Collection) (endian : Endian) :
    collection.makeFiles endian =
      StoreKind.all.forM fun kind => kind.createFile (collection.pathOf kind) endian := by
  simp only [makeFiles, makeFilesIn, makingOrder, StoreKind.all, List.flatMap_cons,
    List.flatMap_nil, List.cons_append, List.nil_append, List.forM_eq_forM, List.forM_cons,
    List.forM_nil, StoreKind.createFile, make, bind_assoc]

/-!
## Opening the files
-/

def file (collection : Collection) (ρ : Type) [StoredRecord ρ] (kind : StoreKind) :
    Action (RecordFile ρ) :=
  RecordFile.openAs ρ kind (collection.pathOf kind)

def nodes (collection : Collection) : Action (RecordFile NodeRecord) := collection.file _ .node

def nodeIds (collection : Collection) : Action (RecordFile NodeIdRecord) :=
  collection.file _ .nodeId

def relationships (collection : Collection) : Action (RecordFile RelationshipRecord) :=
  collection.file _ .relationship

def labels (collection : Collection) : Action (RecordFile LabelRecord) := collection.file _ .label

def properties (collection : Collection) : Action (RecordFile PropertyRecord) :=
  collection.file _ .property

def texts (collection : Collection) : Action (RecordFile TextRecord) := collection.file _ .string

def arrays (collection : Collection) : Action (RecordFile TextRecord) := collection.file _ .array

def keys (collection : Collection) : Action (RecordFile KeyRecord) := collection.file _ .index

def verify (collection : Collection) : Action Unit := do
  let _ ← collection.nodes
  let _ ← collection.nodeIds
  let _ ← collection.relationships
  let _ ← collection.labels
  let _ ← collection.properties
  let _ ← collection.texts
  let _ ← collection.arrays
  let _ ← collection.keys

/-!
## Chains
-/

/-- Follows a chain of records. `visit` reads a record and gives what it holds and what comes next.
A chain with more than `limit` records must pass one of them twice. -/
def walk {α : Type} (visit : RecordId → Action (α × Option RecordId)) (endless : Error) :
    (limit : Nat) → Option RecordId → Action (List α)
  | _, none => return []
  | 0, some _ => throw endless
  | limit + 1, some id => do
      let (held, next) ← visit id
      return held :: (← walk visit endless limit next)

/-!
## Single records
-/

def addLabels (collection : Collection) (labels : List String) : Action RecordId := do
  let record ← Action.of (LabelRecord.ofLabels labels)
  (← collection.labels).append record

def addBlocks (collection : Collection) (blocks : List PropertyBlock) : Action RecordId := do
  let record ← Action.of (PropertyRecord.ofBlocks blocks)
  (← collection.properties).append record

def addNode (collection : Collection) (labels properties : Option RecordId) : Action RecordId := do
  let id ← (← collection.nodes).append (.fresh labels properties)
  let _ ← (← collection.nodeIds).append { inUse := true, node := id }
  return id

/-- Adds a relationship as it is. -/
def addRelationship (collection : Collection) (record : RelationshipRecord) : Action RecordId := do
  (← collection.relationships).append record

def readLabels (collection : Collection) (id : RecordId) : Action (List String) := do
  return (← (← collection.labels).readInUse id).labels

end Collection

end GraphStore
