import GraphStore.Bytes.Pieces
import GraphStore.Disk.Basic
import GraphStore.Bytes.Endian
import GraphStore.Text.Quoted
import GraphStore.Text.Utf8

/-!
# The catalog

The list of the collections of a database, in the order in which they were made. The catalog file
holds 92 bytes about the list and then the names, each with a line break behind it.

    0   mark "SGCT"
    4   version, 2 bytes
    6   number of names, 4 bytes
    10  time of creation, 8 bytes
    18  time of the last change, 8 bytes
    26  zeros
    92  names
-/

set_option autoImplicit false

namespace GraphStore

open Text

/-!
## Names of collections
-/

/-- The greatest length of a name. -/
def maxNameLength : Nat := 64

def isNameCharacter (c : Char) : Bool := c.isAlphanum || c = '_' || c = '-'

/-- Whether a text can name a collection. All characters of a name are ASCII, so that its length is
its size. -/
def isCollectionName (name : String) : Bool :=
  !name.isEmpty && Utf8.size name ≤ maxNameLength && name.toList.all isNameCharacter

/-- Refuses a text that cannot name a collection. -/
def checkCollectionName (name : String) : Except Error Unit :=
  if isCollectionName name then .ok () else .error (.invalidCollectionName name)

/-!
## Catalogs
-/

/-- The catalog of a database. Times are in seconds since the start of 1970. -/
structure Catalog where
  path : Path
  createdAt : Int64
  updatedAt : Int64
  names : List String
deriving Repr, DecidableEq, Inhabited

namespace Catalog

def version : Nat := 1

def fileName : String := "strand.catalog"

/-- The catalog of a database without collections. -/
def fresh (path : Path) (now : Int64) : Catalog :=
  { path, createdAt := now, updatedAt := now, names := [] }

def contains (catalog : Catalog) (name : String) : Bool := catalog.names.contains name

def add (catalog : Catalog) (now : Int64) (name : String) : Except Error Catalog := do
  checkCollectionName name
  if catalog.contains name then throw (.collectionExists name)
  return { catalog with names := catalog.names ++ [name], updatedAt := now }

def remove (catalog : Catalog) (now : Int64) (name : String) : Except Error Catalog :=
  if catalog.contains name then
    .ok { catalog with names := catalog.names.erase name, updatedAt := now }
  else .error (.collectionNotFound name)

/-!
## The file format
-/

def metadataSize : Nat := 92

def magic : List UInt8 := [0x53, 0x47, 0x43, 0x54]

/-- The byte behind every name. -/
def lineBreak : UInt8 := 0x0A

/-- The eight bytes of a time, in two's complement. -/
def encodeTime (time : Int64) : List UInt8 := Endian.little.write 8 time.toBitVec.toNat

def decodeTime (bytes : List UInt8) : Int64 := .ofBitVec (.ofNat 64 (Endian.little.read bytes))

def metadata (catalog : Catalog) : List UInt8 :=
  Field.padded metadataSize
    (magic ++ Endian.little.write 2 version ++ Endian.little.write 4 catalog.names.length ++
      encodeTime catalog.createdAt ++ encodeTime catalog.updatedAt)

def encode (catalog : Catalog) : List UInt8 :=
  catalog.metadata ++ catalog.names.flatMap fun name => Utf8.encode name ++ [lineBreak]

/-- Puts a name that was read behind those read before. -/
def addRead (names : List String) (bytes : List UInt8) : Except String (List String) := do
  let name ← (Utf8.decode bytes).mapError Utf8.Fault.message
  (checkCollectionName name).mapError Error.message
  if names.contains name then throw s!"collection '{name}' listed twice"
  return names ++ [name]

/-- The names in the last part of a catalog file. Empty lines are passed over. -/
def decodeNames (bytes : List UInt8) : Except String (List String) := do
  if !bytes.isEmpty && bytes.getLast? ≠ some lineBreak then
    throw "name list is not terminated"
  (nonemptyPieces lineBreak bytes).foldlM addRead []

/-- Reads a catalog file. The recorded number of names is passed over, the list itself counts. -/
def decode (path : Path) (bytes : List UInt8) : Except String Catalog := do
  if bytes.length < metadataSize then
    throw s!"metadata block is {bytes.length} bytes, expected {metadataSize}"
  if bytes.take 4 ≠ magic then
    let shown := ", ".intercalate ((bytes.take 4).map fun byte => paddedHexDigits 2 byte.toNat)
    throw s!"bad magic [{shown}]"
  let found := Endian.little.read ((bytes.drop 4).take 2)
  if found ≠ version then throw s!"unsupported catalog version {found}"
  let names ← decodeNames (bytes.drop metadataSize)
  return {
    path, names
    createdAt := decodeTime ((bytes.drop 10).take 8)
    updatedAt := decodeTime ((bytes.drop 18).take 8) }

/-!
## The catalog on disk
-/

/-- A file name with another ending. A dot at the front begins no ending. -/
def withEnding (name ending : String) : String :=
  let beforeDot := (name.toList.reverse.dropWhile (· ≠ '.')).drop 1
  let stem := if beforeDot.isEmpty then name else String.ofList beforeDot.reverse
  stem ++ "." ++ ending

/-- The file in which a new catalog is written before it takes the place of the old one. -/
def temporaryPath (path : Path) : Path :=
  path.dropLast ++ [withEnding (path.getLast?.getD "") "catalog.tmp"]

/-- Writes the catalog to its file, so that the file holds the old or the new list as a whole. -/
def flush (catalog : Catalog) : Action Unit := do
  let temporary := temporaryPath catalog.path
  .on temporary (Disk.write temporary catalog.encode)
  .on catalog.path (Disk.change (.rename temporary catalog.path))

def load (path : Path) : Action Catalog := do
  let bytes ← ExceptT.mk do
    match ← Disk.content path with
    | .ok bytes => return .ok bytes
    | .error cause =>
        return .error (.initialization s!"cannot read {path.text}: {cause.message}")
  match decode path bytes with
  | .ok catalog => return catalog
  | .error reason => throw (.initialization s!"corrupt catalog {path.text}: {reason}")

/-- Reads the catalog of the database in a directory, or makes an empty one. -/
def loadOrCreate (directory : Path) (now : Int64) : Action Catalog := do
  let path := directory.child fileName
  let present ← ExceptT.mk do
    match ← Disk.present path with
    | .ok present => return .ok present
    | .error cause =>
        return .error (.initialization s!"cannot access {path.text}: {cause.message}")
  if present then load path
  else
    let catalog := fresh path now
    ExceptT.mk do
      match ← catalog.flush.outcome with
      | .ok () => return .ok catalog
      | .error cause =>
          return .error (.initialization s!"cannot create catalog: {cause.message}")

end Catalog

end GraphStore
