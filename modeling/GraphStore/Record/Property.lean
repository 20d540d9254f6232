import GraphStore.Record.Basic
import GraphStore.Text.Quoted

/-!
# Property records

A property is packed into one number of 64 bits: 4 bits for its key, 24 for the type of its value
and 36 for the value. A record holds four of them. Main statements: packing and unpacking are
inverse to each other, and the eight bytes spell that number.
-/

set_option autoImplicit false

namespace GraphStore

open Text

/-- The type of a property's value. -/
inductive PropertyType where
  /-- No property. -/
  | empty
  | bool
  | int
  /-- The value is the first record of a text. -/
  | string
  /-- The value is the first record of an array. Arrays are not stored yet. -/
  | array
  /-- A type of a later format. -/
  | unknown (tag : Nat)
deriving Repr, DecidableEq

namespace PropertyType

def tag : PropertyType → Nat
  | empty => 0
  | bool => 1
  | int => 2
  | string => 3
  | array => 4
  | unknown tag => tag

def ofTag : Nat → PropertyType
  | 0 => empty
  | 1 => bool
  | 2 => int
  | 3 => string
  | 4 => array
  | tag => unknown tag

def name : PropertyType → String
  | empty => "Empty"
  | bool => "Bool"
  | int => "Int"
  | string => "String"
  | array => "Array"
  | unknown tag => s!"Unknown({tag})"

@[simp] theorem tag_ofTag (number : Nat) : (ofTag number).tag = number := by
  unfold ofTag
  split <;> rfl

end PropertyType

/-- One packed property. -/
structure PropertyBlock where
  key : BitVec 4
  tag : BitVec 24
  value : BitVec 36
deriving Repr, DecidableEq, Inhabited

namespace PropertyBlock

def vacant : PropertyBlock := ⟨0, 0, 0⟩

/-- The block with these fields, if each fits in its bits. The key is checked first. -/
def make (key tag value : Nat) : Except Error PropertyBlock :=
  if 0x10 ≤ key then .error (.valueOutOfRange s!"property key id {key} exceeds 15")
  else if 0x1000000 ≤ tag then
    .error (.valueOutOfRange s!"property type tag 0x{hexDigits tag} exceeds 24 bits")
  else if 0x1000000000 ≤ value then
    .error (.valueOutOfRange s!"property value 0x{hexDigits value} exceeds 36 bits")
  else .ok ⟨BitVec.ofNat 4 key, BitVec.ofNat 24 tag, BitVec.ofNat 36 value⟩

/-- The integers that a block can hold, in two's complement. -/
def fits (value : Int) : Bool := -0x800000000 ≤ value && value < 0x800000000

/-- The block of an integer. The integer is checked before the key. -/
def ofInt (key : Nat) (value : Int) : Except Error PropertyBlock :=
  if fits value then make key PropertyType.int.tag (BitVec.ofInt 36 value).toNat
  else .error (.valueOutOfRange s!"integer {value} does not fit in 36 bits")

def ofBool (key : Nat) (value : Bool) : Except Error PropertyBlock :=
  make key PropertyType.bool.tag value.toNat

def ofText (key : Nat) (head : RecordId) : Except Error PropertyBlock :=
  make key PropertyType.string.tag head.toNat

def type (block : PropertyBlock) : PropertyType := .ofTag block.tag.toNat

/-- The value as an integer in two's complement. -/
def toInt (block : PropertyBlock) : Int := block.value.toInt

def isEmpty (block : PropertyBlock) : Bool := block.tag == 0

def toNat (block : PropertyBlock) : Nat :=
  block.key.toNat * 0x1000000000000000 + block.tag.toNat * 0x1000000000 + block.value.toNat

/-- The block that a number of 64 bits spells. -/
def ofNat (number : Nat) : PropertyBlock :=
  ⟨.ofNat 4 (number / 0x1000000000000000), .ofNat 24 (number / 0x1000000000), .ofNat 36 number⟩

/-- The eight bytes of a block. Their order does not depend on the file's byte order. -/
def pack (block : PropertyBlock) : List UInt8 := Endian.big.write 8 block.toNat

def unpack (bytes : List UInt8) : PropertyBlock := ofNat (Endian.big.read bytes)

theorem toNat_lt (block : PropertyBlock) : block.toNat < 0x10000000000000000 := by
  have := block.key.isLt
  have := block.tag.isLt
  have := block.value.isLt
  unfold toNat
  omega

theorem ofNat_toNat (block : PropertyBlock) : ofNat block.toNat = block := by
  have key := block.key.isLt
  have tag := block.tag.isLt
  have value := block.value.isLt
  have keyNumber : block.toNat / 0x1000000000000000 = block.key.toNat := by unfold toNat; omega
  have tagNumber : block.toNat / 0x1000000000 % 0x1000000 = block.tag.toNat := by
    unfold toNat; omega
  have valueNumber : block.toNat % 0x1000000000 = block.value.toNat := by unfold toNat; omega
  cases block
  simp only [ofNat, mk.injEq]
  refine ⟨?_, ?_, ?_⟩ <;> apply BitVec.eq_of_toNat_eq <;> rw [BitVec.toNat_ofNat]
  · rw [keyNumber]; exact Nat.mod_eq_of_lt key
  · exact tagNumber
  · exact valueNumber

theorem toNat_ofNat (number : Nat) (bound : number < 0x10000000000000000) :
    (ofNat number).toNat = number := by
  simp only [ofNat, toNat, BitVec.toNat_ofNat]
  omega

theorem unpack_pack (block : PropertyBlock) : unpack block.pack = block := by
  have bound := block.toNat_lt
  rw [unpack, pack, Endian.read_write, Nat.mod_eq_of_lt (by omega), ofNat_toNat]

end PropertyBlock

def blocksPerRecord : Nat := 4

/-- Up to four properties, linked to further records by short pointers. -/
structure PropertyRecord where
  inUse : Bool
  next : Option UInt16
  previous : Option UInt16
  blocks : Vector PropertyBlock blocksPerRecord
deriving Repr, DecidableEq

namespace PropertyRecord

def ofBlocks (blocks : List PropertyBlock) : Except Error PropertyRecord :=
  if blocksPerRecord < blocks.length then
    .error (.payloadTooLarge "inline property list" blocksPerRecord blocks.length)
  else
    .ok {
      inUse := true, next := none, previous := none
      blocks := Vector.ofFn fun slot => blocks.getD slot .vacant }

def used (record : PropertyRecord) : List PropertyBlock :=
  record.blocks.toList.filter (!·.isEmpty)

end PropertyRecord

instance : StoredRecord PropertyRecord where
  size := 37
  kindName := "property"
  inUse := PropertyRecord.inUse
  encode endian record :=
    Field.flag record.inUse ++ Field.shortPointer endian record.next ++
      Field.shortPointer endian record.previous ++ record.blocks.toList.flatMap PropertyBlock.pack
  fields endian := do
    let inUse ← FieldReader.flag
    let next ← FieldReader.shortPointer endian
    let previous ← FieldReader.shortPointer endian
    let first ← FieldReader.bytes 8
    let second ← FieldReader.bytes 8
    let third ← FieldReader.bytes 8
    let fourth ← FieldReader.bytes 8
    return .ok {
      inUse, next, previous
      blocks := #v[.unpack first, .unpack second, .unpack third, .unpack fourth] }

end GraphStore
