import GraphStore.Collection.Texts
import GraphStore.Graph.Property

/-!
# Lists of properties

A list of properties is first planned, which finds the keys and checks every limit, and then
written: new keys, then texts, then the records of the properties, linked in both directions.
-/

set_option autoImplicit false

namespace GraphStore

/-- The greatest number of keys in a collection. -/
def maxKeys : Nat := 16

/-- A list of properties that has been checked against the keys of a collection. -/
structure PropertyPlan where
  /-- The keys that the collection does not have yet. -/
  newKeys : List String
  /-- The numbers of the keys with the values, in order. -/
  entries : List (Nat × PropertyValue)
deriving Repr, DecidableEq, Inhabited

namespace PropertyPlan

def isEmpty (plan : PropertyPlan) : Bool := plan.entries.isEmpty

def recordCount (plan : PropertyPlan) : Nat := sliceCount blocksPerRecord plan.entries.length

/-- The number of a key, and the plan with the key added if it is new. -/
def keyNumber (plan : PropertyPlan) (known : List String) (key : String) :
    Except Error (Nat × PropertyPlan) :=
  match known.idxOf? key with
  | some number => .ok (number, plan)
  | none => do
      let _ ← KeyRecord.ofName key
      return (known.length + plan.newKeys.length, { plan with newKeys := plan.newKeys ++ [key] })

def add (known earlier : List String) (plan : PropertyPlan) (property : Property) :
    Except Error PropertyPlan := do
  if earlier.contains property.key then
    throw (.valueOutOfRange s!"property '{property.key}' is given more than once")
  let (number, plan) ← plan.keyNumber known property.key
  if maxKeys ≤ number then
    throw (.payloadTooLarge "property key index" maxKeys (known.length + plan.newKeys.length))
  if let .int value := property.value then
    let _ ← PropertyBlock.ofInt number value.toInt
  return { plan with entries := plan.entries ++ [(number, property.value)] }

def addAll (known earlier : List String) (plan : PropertyPlan) :
    List Property → Except Error PropertyPlan
  | [] => .ok plan
  | property :: rest => do
      let plan ← plan.add known earlier property
      plan.addAll known (property.key :: earlier) rest

end PropertyPlan

namespace Collection

def keyNames (collection : Collection) : Action (List String) := do
  return (← (← collection.keys).readAll).map KeyRecord.name

/-- The greatest number of a property record that another one can point at, and the number that
stands for none. -/
def shortIdLimit : Nat := absentShortId.toNat

/-- Plans a list of properties without a change on disk. -/
def planProperties (collection : Collection) (properties : List Property) :
    Action PropertyPlan := do
  let known ← collection.keyNames
  let plan ← Action.of (PropertyPlan.addAll known [] ⟨[], []⟩ properties)
  if 1 < plan.recordCount then
    let first ← (← collection.properties).count
    let last := first + plan.recordCount - 1
    if shortIdLimit ≤ last then
      throw (.payloadTooLarge "chained property record id" (shortIdLimit - 1) last)
  return plan

def shortPointer (id : Nat) : Except Error UInt16 :=
  if id < shortIdLimit then .ok (UInt16.ofNat id)
  else .error (.payloadTooLarge "chained property record id" (shortIdLimit - 1) id)

/-- The records of properties that stand behind `before` records of the same chain, the first of
which gets the number `first`. -/
def propertyRecords (first before : Nat) :
    List (List PropertyBlock) → Except Error (List PropertyRecord)
  | [] => .ok []
  | blocks :: rest => do
      let record ← PropertyRecord.ofBlocks blocks
      let next ← if rest.isEmpty then pure none else some <$> shortPointer (first + 1)
      let previous ← if before = 0 then pure none else some <$> shortPointer (first - 1)
      return { record with next, previous } :: (← propertyRecords (first + 1) (before + 1) rest)

/-- The block of a value. A text is written first. -/
def writeValue (collection : Collection) (key : Nat) : PropertyValue → Action PropertyBlock
  | .bool value => .of (PropertyBlock.ofBool key value)
  | .int value => .of (PropertyBlock.ofInt key value.toInt)
  | .text value => do
      let head ← collection.writeText value
      .of (PropertyBlock.ofText key head)

/-- Writes planned properties and gives the number of their first record, if there are any. -/
def writeProperties (collection : Collection) (plan : PropertyPlan) :
    Action (Option RecordId) := do
  if plan.isEmpty then return none
  if !plan.newKeys.isEmpty then
    let records ← Action.of (plan.newKeys.mapM KeyRecord.ofName)
    let _ ← (← collection.keys).appendAll records
  let blocks ← plan.entries.mapM fun entry => collection.writeValue entry.1 entry.2
  let file ← collection.properties
  let first ← file.count
  let records ← Action.of
    (propertyRecords first 0 (slices blocksPerRecord plan.recordCount blocks))
  return some (← file.appendAll records)

def readBlock (collection : Collection) (keys : List String) (id : RecordId)
    (block : PropertyBlock) : Action Property := do
  match keys[block.key.toNat]? with
  | none =>
      throw (.invalidReference s!"property record {id} uses unknown key id {block.key.toNat}")
  | some key =>
      match block.type with
      | .bool => return ⟨key, .bool (block.value != 0)⟩
      | .int => return ⟨key, .int (.ofInt block.toInt)⟩
      | .string =>
          return ⟨key, .text (← collection.readText (UInt32.ofNat block.value.toNat))⟩
      | other =>
          throw (.valueOutOfRange s!"property record {id} holds unsupported type {other.name}")

def readProperties (collection : Collection) : Option RecordId → Action (List Property)
  | none => return []
  | some head => do
      let file ← collection.properties
      let limit ← file.count
      let keys ← collection.keyNames
      let visit (id : RecordId) : Action (List Property × Option RecordId) := do
        let record ← file.readInUse id
        let properties ← record.used.mapM (collection.readBlock keys id)
        return (properties, record.next.map UInt16.toUInt32)
      let found ← walk visit
        (.invalidReference s!"property chain from {head} does not terminate") limit (some head)
      return found.flatten

end Collection

end GraphStore
