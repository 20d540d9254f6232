import GraphStore.Record.Basic
import GraphStore.Text.Utf8

/-!
# Key records

The name of a property. Its place in the file is the key in the blocks of properties.
-/

set_option autoImplicit false

namespace GraphStore

open Text

/-- The greatest size of a property name in bytes. -/
def maxKeySize : Nat := 30

/-- The name of a property. -/
structure KeyRecord where
  inUse : Bool
  name : String
deriving Repr, DecidableEq, Inhabited

namespace KeyRecord

def ofName (name : String) : Except Error KeyRecord :=
  if name.isEmpty || maxKeySize < Utf8.size name then
    .error (.payloadTooLarge "property name" maxKeySize (Utf8.size name))
  else .ok { inUse := true, name }

end KeyRecord

instance : StoredRecord KeyRecord where
  size := 32
  kindName := "property key"
  inUse := KeyRecord.inUse
  encode _ record :=
    Field.flag record.inUse ++ UInt8.ofNat (Utf8.size record.name) ::
      Field.padded maxKeySize (Utf8.encode record.name)
  fields _ := do
    let inUse ← FieldReader.flag
    let length ← FieldReader.u8
    let slot ← FieldReader.bytes maxKeySize
    match Utf8.decode (slot.take length.toNat) with
    | .ok name => return .ok { inUse, name }
    | .error fault =>
        return .error (.valueOutOfRange s!"property name is not UTF-8: {fault.message}")

end GraphStore
