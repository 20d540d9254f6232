import GraphStore.Bytes.Pieces
import GraphStore.Record.Basic
import GraphStore.Text.Quoted
import GraphStore.Text.Utf8

/-!
# Label records

Up to three labels in one slot of 60 bytes, with a zero byte between neighbours and zeros behind
the last.
-/

set_option autoImplicit false

namespace GraphStore

open Text

/-- The labels of a node, or the type and the label of a relationship. -/
structure LabelRecord where
  inUse : Bool
  /-- A field kept for later use. -/
  reserved : UInt32
  labels : List String
deriving Repr, DecidableEq, Inhabited

namespace LabelRecord

def slotWidth : Nat := 60

/-- The greatest number of labels. -/
def maxLabels : Nat := 3

/-- The bytes of some labels in the slot, without the filling. -/
def payload (labels : List String) : List UInt8 := [0].intercalate (labels.map Utf8.encode)

def isLabel (text : String) : Bool := !text.isEmpty && !(Utf8.encode text).contains 0

/-- The record of some labels. Their number is checked first, then each label, then their size. -/
def ofLabels (labels : List String) : Except Error LabelRecord :=
  if maxLabels < labels.length then
    .error (.payloadTooLarge "label list" maxLabels labels.length)
  else
    match labels.find? (!isLabel ·) with
    | some bad =>
        .error (.valueOutOfRange
          s!"label {quoted bad} must be non-empty and contain no NUL bytes")
    | none =>
        if slotWidth < (payload labels).length then
          .error (.payloadTooLarge "label payload" slotWidth (payload labels).length)
        else .ok { inUse := true, reserved := 0, labels }

/-- The labels in a slot: the texts between its zero bytes. -/
def labelsOfSlot (slot : List UInt8) : Except Error (List String) :=
  (nonemptyPieces 0 slot).mapM fun piece =>
    match Utf8.decode piece with
    | .ok label => .ok label
    | .error fault => .error (.valueOutOfRange s!"label is not UTF-8: {fault.message}")

end LabelRecord

instance : StoredRecord LabelRecord where
  size := 65
  kindName := "label"
  inUse := LabelRecord.inUse
  encode endian record :=
    Field.flag record.inUse ++ Field.u32 endian record.reserved ++
      Field.padded LabelRecord.slotWidth (LabelRecord.payload record.labels)
  fields endian := do
    let inUse ← FieldReader.flag
    let reserved ← FieldReader.u32 endian
    let slot ← FieldReader.bytes LabelRecord.slotWidth
    return (LabelRecord.labelsOfSlot slot).map fun labels => { inUse, reserved, labels }

end GraphStore
