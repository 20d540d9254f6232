import GraphStore.Collection.Basic

/-!
# Texts of any length

A text is cut into pieces that stand in consecutive records, each linked to the next. The empty
text takes one record.
-/

set_option autoImplicit false

namespace GraphStore.Collection

open Text

def textChunks (text : String) : List (List UInt8) :=
  let bytes := Utf8.encode text
  slices textChunkSize (max 1 (sliceCount textChunkSize bytes.length)) bytes

/-- The records of pieces, the first of which gets the number `first`. -/
def textRecords (first : Nat) : List (List UInt8) → Except Error (List TextRecord)
  | [] => .ok []
  | [last] => do return [← TextRecord.ofData last none]
  | chunk :: rest => do
      let record ← TextRecord.ofData chunk (some (UInt32.ofNat (first + 1)))
      return record :: (← textRecords (first + 1) rest)

/-- Writes a text and gives the number of its first record. -/
def writeText (collection : Collection) (text : String) : Action RecordId := do
  let file ← collection.texts
  let first ← file.count
  let records ← Action.of (textRecords first (textChunks text))
  file.appendAll records

def readText (collection : Collection) (head : RecordId) : Action String := do
  let file ← collection.texts
  let limit ← file.count
  let visit (id : RecordId) : Action (List UInt8 × Option RecordId) := do
    let record ← file.readInUse id
    return (record.data, record.next)
  let chunks ← walk visit (.invalidReference s!"string chain from {head} does not terminate") limit
    (some head)
  match Utf8.decode chunks.flatten with
  | .ok text => return text
  | .error fault => throw (.valueOutOfRange s!"string {head} is not UTF-8: {fault.message}")

end GraphStore.Collection
