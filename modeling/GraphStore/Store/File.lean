import GraphStore.Bytes.Slices
import GraphStore.Disk.Basic
import GraphStore.Store.Header

/-!
# Record files

A record file is a header followed by records of one size. The record with number `i` stands at
byte `15 + i * size`, and new records are added only at the end.
-/

set_option autoImplicit false

namespace GraphStore

/-- A record file whose header has been checked. -/
structure RecordFile (ρ : Type) where
  path : Path
  header : StoreHeader
deriving Repr

namespace RecordFile

open StoredRecord

variable {ρ : Type} [StoredRecord ρ]

/-- The byte order of the file. -/
def endian (file : RecordFile ρ) : Endian := file.header.endian

def offset (ρ : Type) [StoredRecord ρ] (id : RecordId) : Nat := headerSize + id.toNat * size ρ

/-- How many records a file with `bytes` bytes holds. A part of a record at the end is an error. -/
def countOf (ρ : Type) [StoredRecord ρ] (path : Path) (bytes : Nat) : Except Error Nat :=
  let body := bytes - headerSize
  let torn := body % size ρ
  if torn ≠ 0 then .error (.malformedRecord (kindName ρ) (size ρ) torn)
  else if 0x100000000 ≤ body / size ρ then
    .error (.incompatibleStore path.text "record count exceeds id space")
  else .ok (body / size ρ)

def count (file : RecordFile ρ) : Action Nat := do
  .of (countOf ρ file.path (← .on file.path (Disk.size file.path)))

def openAs (ρ : Type) [StoredRecord ρ] (kind : StoreKind) (path : Path) :
    Action (RecordFile ρ) := do
  if kind.recordSize ≠ size ρ then
    throw (.internal
      s!"{kindName ρ} codec is {size ρ} bytes but {kind.name} store declares {kind.recordSize}")
  let bytes ← .on path (Disk.slice path 0 headerSize)
  if bytes.length < headerSize then
    throw (.incompatibleStore path.text "file shorter than store header")
  let header ← Action.of (StoreHeader.decodeAs kind path.text bytes)
  let file : RecordFile ρ := ⟨path, header⟩
  let _ ← file.count
  return file

/-- The greatest number of a record and the number that stands for none. -/
def idLimit : Nat := absentId.toNat

/-- Adds records at the end in one step and gives the number of the first. -/
def appendAll (file : RecordFile ρ) (records : List ρ) : Action RecordId := do
  let first ← file.count
  let last := first + records.length
  if idLimit ≤ last then throw (.payloadTooLarge "record id" (idLimit - 1) last)
  .on file.path (Disk.change (.append file.path (records.flatMap (encode file.endian))))
  return UInt32.ofNat first

def append (file : RecordFile ρ) (record : ρ) : Action RecordId := file.appendAll [record]

def checkId (file : RecordFile ρ) (id : RecordId) : Action Unit := do
  let held ← file.count
  if held ≤ id.toNat then throw (.notFound s!"{kindName ρ} record {id} (store holds {held})")

/-- The record with a number, whether its slot is taken or not. -/
def read (file : RecordFile ρ) (id : RecordId) : Action ρ := do
  file.checkId id
  let bytes ← .on file.path (Disk.slice file.path (offset ρ id) (size ρ))
  .of (decode file.endian bytes)

def readInUse (file : RecordFile ρ) (id : RecordId) : Action ρ := do
  let record ← file.read id
  if inUse record then return record
  else throw (.notFound s!"{kindName ρ} record {id} is not in use")

def readAll (file : RecordFile ρ) : Action (List ρ) := do
  let content ← .on file.path (Disk.content file.path)
  let held ← .of (countOf ρ file.path content.length)
  .of ((slices (size ρ) held (content.drop headerSize)).mapM (decode file.endian))

def writeAt (file : RecordFile ρ) (id : RecordId) (record : ρ) : Action Unit := do
  file.checkId id
  .on file.path
    (Disk.change (.overwrite file.path (offset ρ id) (encode file.endian record)))

end RecordFile

end GraphStore
