import GraphStore.Record.Key
import GraphStore.Record.Label
import GraphStore.Record.Node
import GraphStore.Record.Property
import GraphStore.Record.Relationship
import GraphStore.Record.Text

/-!
# Kinds of store files

A collection keeps its records in eight files, one for each kind of record. The file of arrays is
kept for later and laid out as the file of texts.
-/

set_option autoImplicit false

namespace GraphStore

/-- A kind of store file. -/
inductive StoreKind where
  | node
  | nodeId
  | relationship
  | label
  | property
  | string
  | array
  | index
deriving Repr, DecidableEq, Inhabited

namespace StoreKind

/-- Every kind, in the order in which the files of a collection are made. -/
def all : List StoreKind := [node, nodeId, relationship, label, property, string, array, index]

theorem mem_all (kind : StoreKind) : kind ∈ all := by cases kind <;> decide

def id : StoreKind → UInt8
  | node => 1
  | nodeId => 2
  | relationship => 3
  | label => 4
  | property => 5
  | string => 6
  | array => 7
  | index => 8

def ofId? (id : UInt8) : Option StoreKind := all.find? (·.id == id)

theorem ofId?_id (kind : StoreKind) : ofId? kind.id = some kind := by cases kind <;> rfl

def name : StoreKind → String
  | node => "Node"
  | nodeId => "NodeId"
  | relationship => "Relationship"
  | label => "Label"
  | property => "Property"
  | string => "String"
  | array => "Array"
  | index => "Index"

def fileName : StoreKind → String
  | node => "nodes.store"
  | nodeId => "nodes.id"
  | relationship => "rels.store"
  | label => "labels.store"
  | property => "props.store"
  | string => "props.strings"
  | array => "props.arrays"
  | index => "props.index"

def recordSize : StoreKind → Nat
  | node => StoredRecord.size NodeRecord
  | nodeId => StoredRecord.size NodeIdRecord
  | relationship => StoredRecord.size RelationshipRecord
  | label => StoredRecord.size LabelRecord
  | property => StoredRecord.size PropertyRecord
  | string => StoredRecord.size TextRecord
  | array => StoredRecord.size TextRecord
  | index => StoredRecord.size KeyRecord

end StoreKind

end GraphStore
