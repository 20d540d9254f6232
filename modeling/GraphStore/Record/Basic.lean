import GraphStore.Bytes.Endian
import GraphStore.Error

/-!
# Records of fixed size

What all record kinds share: a size, a name for messages, a flag that says whether the slot is
taken, and a layout that is written and read in either byte order.
-/

set_option autoImplicit false

namespace GraphStore

/-- A kind of record. -/
class StoredRecord (ρ : Type) where
  /-- The number of bytes of every record of the kind. -/
  size : Nat
  /-- The name of the kind in messages. -/
  kindName : String
  /-- Whether the slot is taken. -/
  inUse : ρ → Bool
  /-- The bytes of a record. -/
  encode : Endian → ρ → List UInt8
  /-- Reads a record from exactly `size` bytes. -/
  fields : Endian → FieldReader (Except Error ρ)

namespace StoredRecord

/-- The record that some bytes hold. Any other number of bytes than the record's size is an error,
whatever the bytes are. -/
def decode {ρ : Type} [StoredRecord ρ] (endian : Endian) (bytes : List UInt8) : Except Error ρ :=
  if bytes.length = size ρ then (fields endian bytes).1
  else .error (.malformedRecord (kindName ρ) (size ρ) bytes.length)

end StoredRecord

end GraphStore
