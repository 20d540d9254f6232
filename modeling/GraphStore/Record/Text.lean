import GraphStore.Record.Basic

/-!
# Text records

A piece of a text of at most 58 bytes and a link to the following piece.
-/

set_option autoImplicit false

namespace GraphStore

def textChunkSize : Nat := 58

/-- A piece of a text. -/
structure TextRecord where
  inUse : Bool
  /-- The record with the following piece. -/
  next : Option RecordId
  data : List UInt8
  data_le : data.length ≤ textChunkSize := by decide
deriving Repr, DecidableEq

namespace TextRecord

instance : Inhabited TextRecord where
  default := { inUse := false, next := none, data := [] }

def ofData (data : List UInt8) (next : Option RecordId) : Except Error TextRecord :=
  if fits : data.length ≤ textChunkSize then .ok { inUse := true, next, data, data_le := fits }
  else .error (.payloadTooLarge "string chunk" textChunkSize data.length)

end TextRecord

instance : StoredRecord TextRecord where
  size := 64
  kindName := "string"
  inUse := TextRecord.inUse
  encode endian record :=
    Field.flag record.inUse ++ Field.pointer endian record.next ++
      UInt8.ofNat record.data.length :: Field.padded textChunkSize record.data
  fields endian := do
    let inUse ← FieldReader.flag
    let next ← FieldReader.pointer endian
    let length ← FieldReader.u8
    let slot ← FieldReader.bytes textChunkSize
    if fits : length.toNat ≤ textChunkSize then
      return .ok {
        inUse, next, data := slot.take length.toNat
        data_le := by rw [List.length_take]; omega }
    else
      return .error (.valueOutOfRange s!"string chunk length {length} exceeds {textChunkSize}")

end GraphStore
