import GraphStore.Record.Basic

/-!
# Relationship records

A relationship stands in two chains, one for each of the nodes it joins. Each chain is linked in
both directions through the links of the side on which its node stands.
-/

set_option autoImplicit false

namespace GraphStore

/-- A relationship between two nodes, with its links in the chains of both. -/
structure RelationshipRecord where
  inUse : Bool
  /-- The node at which the relationship starts. -/
  first : RecordId
  /-- The node at which it ends. -/
  second : RecordId
  /-- The label record with the name of its type. -/
  kind : RecordId
  firstPrevious : Option RecordId
  firstNext : Option RecordId
  secondPrevious : Option RecordId
  secondNext : Option RecordId
  /-- The first property record of the relationship. -/
  properties : Option RecordId
deriving Repr, DecidableEq, Inhabited

namespace RelationshipRecord

def setPrevious (record : RelationshipRecord) (node : RecordId) (previous : Option RecordId) :
    RelationshipRecord :=
  { record with
    firstPrevious := if record.first = node then previous else record.firstPrevious
    secondPrevious := if record.second = node then previous else record.secondPrevious }

def next (record : RelationshipRecord) (node : RecordId) : Option RecordId :=
  if record.first = node then record.firstNext
  else if record.second = node then record.secondNext
  else none

end RelationshipRecord

instance : StoredRecord RelationshipRecord where
  size := 33
  kindName := "relationship"
  inUse := RelationshipRecord.inUse
  encode endian record :=
    Field.flag record.inUse ++ Field.u32 endian record.first ++ Field.u32 endian record.second ++
      Field.u32 endian record.kind ++ Field.pointer endian record.firstPrevious ++
      Field.pointer endian record.firstNext ++ Field.pointer endian record.secondPrevious ++
      Field.pointer endian record.secondNext ++ Field.pointer endian record.properties
  fields endian := do
    let inUse ← FieldReader.flag
    let first ← FieldReader.u32 endian
    let second ← FieldReader.u32 endian
    let kind ← FieldReader.u32 endian
    let firstPrevious ← FieldReader.pointer endian
    let firstNext ← FieldReader.pointer endian
    let secondPrevious ← FieldReader.pointer endian
    let secondNext ← FieldReader.pointer endian
    let properties ← FieldReader.pointer endian
    return .ok {
      inUse, first, second, kind
      firstPrevious, firstNext, secondPrevious, secondNext, properties }

end GraphStore
