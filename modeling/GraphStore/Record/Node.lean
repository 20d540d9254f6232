import GraphStore.Record.Basic

/-!
# Node records

The anchor of a node, whose id is the record's place in its file, and the entry that a node has in
the list of ids.
-/

set_option autoImplicit false

namespace GraphStore

/-- The anchor of a node. -/
structure NodeRecord where
  inUse : Bool
  /-- The label record with the node's labels. -/
  labels : Option RecordId
  /-- The newest relationship of the node. -/
  relationships : Option RecordId
  /-- The first property record of the node. -/
  properties : Option RecordId
deriving Repr, DecidableEq, Inhabited

/-- A node without relationships. -/
def NodeRecord.fresh (labels properties : Option RecordId) : NodeRecord :=
  { inUse := true, labels, relationships := none, properties }

instance : StoredRecord NodeRecord where
  size := 13
  kindName := "node"
  inUse := NodeRecord.inUse
  encode endian record :=
    Field.flag record.inUse ++ Field.pointer endian record.labels ++
      Field.pointer endian record.relationships ++ Field.pointer endian record.properties
  fields endian := do
    let inUse ← FieldReader.flag
    let labels ← FieldReader.pointer endian
    let relationships ← FieldReader.pointer endian
    let properties ← FieldReader.pointer endian
    return .ok { inUse, labels, relationships, properties }

/-- An entry of the list of node ids. -/
structure NodeIdRecord where
  inUse : Bool
  node : RecordId
deriving Repr, DecidableEq, Inhabited

instance : StoredRecord NodeIdRecord where
  size := 5
  kindName := "node id"
  inUse := NodeIdRecord.inUse
  encode endian record := Field.flag record.inUse ++ Field.u32 endian record.node
  fields endian := do
    let inUse ← FieldReader.flag
    let node ← FieldReader.u32 endian
    return .ok { inUse, node }

end GraphStore
