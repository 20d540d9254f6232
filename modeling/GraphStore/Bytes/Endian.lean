/-!
# Byte order

Numbers as byte sequences of a fixed width, in either order, and the fields of a record built from
them. Main statements: reading what was written gives the number modulo the width, and writing what
was read gives the bytes again.
-/

set_option autoImplicit false

namespace GraphStore

/-- The order of the bytes of a number in a file. -/
inductive Endian where
  /-- Least significant byte first. -/
  | little
  /-- Most significant byte first. -/
  | big
deriving Repr, DecidableEq, Inhabited

/-- The position of a record in its file. -/
abbrev RecordId := UInt32

/-- The number that stands for an absent pointer of four bytes. -/
def absentId : UInt32 := 0xFFFFFFFF

/-- The number that stands for an absent pointer of two bytes. -/
def absentShortId : UInt16 := 0xFFFF

/-- The lowest `width` digits of a number to base 256, lowest first. -/
def lowBytes : (width : Nat) → Nat → List UInt8
  | 0, _ => []
  | width + 1, n => UInt8.ofNat n :: lowBytes width (n / 256)

/-- The number with these digits to base 256, lowest first. -/
def ofLowBytes : List UInt8 → Nat
  | [] => 0
  | byte :: rest => byte.toNat + 256 * ofLowBytes rest

@[simp] theorem length_lowBytes (width n : Nat) : (lowBytes width n).length = width := by
  induction width generalizing n with
  | zero => rfl
  | succ width ih => simp [lowBytes, ih]

theorem ofLowBytes_lowBytes (width n : Nat) :
    ofLowBytes (lowBytes width n) = n % Nat.pow 256 width := by
  induction width generalizing n with
  | zero => simp [lowBytes, ofLowBytes, Nat.mod_one]
  | succ width ih =>
      have byte : (UInt8.ofNat n).toNat = n % 256 := by simp [UInt8.toNat_ofNat']
      have power : Nat.pow 256 (width + 1) = 256 * Nat.pow 256 width := Nat.mul_comm ..
      rw [lowBytes, ofLowBytes, ih, byte, power, Nat.mod_mul]

theorem lowBytes_ofLowBytes (bytes : List UInt8) :
    lowBytes bytes.length (ofLowBytes bytes) = bytes := by
  induction bytes with
  | nil => rfl
  | cons byte rest ih =>
      have bound := byte.toNat_lt
      have head : UInt8.ofNat (byte.toNat + 256 * ofLowBytes rest) = byte := by
        apply UInt8.toNat.inj
        simp only [UInt8.toNat_ofNat']
        omega
      have tail : (byte.toNat + 256 * ofLowBytes rest) / 256 = ofLowBytes rest := by omega
      rw [List.length_cons, ofLowBytes, lowBytes, head, tail, ih]

namespace Endian

/-- The number that records a byte order in a file header. -/
def flag : Endian → UInt8
  | little => 0
  | big => 1

/-- The byte order that a flag records. -/
def ofFlag? (flag : UInt8) : Option Endian :=
  if flag = 0 then some little else if flag = 1 then some big else none

/-- The name of a byte order in settings. -/
def name : Endian → String
  | little => "little"
  | big => "big"

/-- The byte order with a name. -/
def ofName? (name : String) : Option Endian := [little, big].find? (·.name == name)

/-- Reads a byte order's name in any mix of upper and lower case. -/
def parse (text : String) : Except String Endian :=
  match text.map Char.toLower with
  | "little" => .ok little
  | "big" => .ok big
  | other => .error s!"unknown byte order '{other}' (expected little or big)"

def write (endian : Endian) (width n : Nat) : List UInt8 :=
  match endian with
  | little => lowBytes width n
  | big => (lowBytes width n).reverse

def read (endian : Endian) (bytes : List UInt8) : Nat :=
  match endian with
  | little => ofLowBytes bytes
  | big => ofLowBytes bytes.reverse

@[simp] theorem ofFlag?_flag (endian : Endian) : ofFlag? endian.flag = some endian := by
  cases endian <;> rfl

@[simp] theorem length_write (endian : Endian) (width n : Nat) :
    (endian.write width n).length = width := by
  cases endian <;> simp [write]

theorem read_write (endian : Endian) (width n : Nat) :
    endian.read (endian.write width n) = n % Nat.pow 256 width := by
  cases endian <;> simp [read, write, ofLowBytes_lowBytes]

theorem write_read (endian : Endian) (bytes : List UInt8) :
    endian.write bytes.length (endian.read bytes) = bytes := by
  cases endian with
  | little => exact lowBytes_ofLowBytes bytes
  | big =>
      have := lowBytes_ofLowBytes bytes.reverse
      rw [List.length_reverse] at this
      simp [read, write, this]

end Endian

/-!
## Fields
-/

namespace Field

def flag (value : Bool) : List UInt8 := [if value then 1 else 0]

def u16 (endian : Endian) (value : UInt16) : List UInt8 := endian.write 2 value.toNat

def u32 (endian : Endian) (value : UInt32) : List UInt8 := endian.write 4 value.toNat

/-- A pointer of four bytes; all ones stand for none. -/
def pointer (endian : Endian) (value : Option RecordId) : List UInt8 :=
  u32 endian (value.getD absentId)

/-- A pointer of two bytes; all ones stand for none. -/
def shortPointer (endian : Endian) (value : Option UInt16) : List UInt8 :=
  u16 endian (value.getD absentShortId)

/-- Bytes filled up with zeros on the right to a width. -/
def padded (width : Nat) (bytes : List UInt8) : List UInt8 :=
  bytes ++ List.replicate (width - bytes.length) 0

end Field

/-- Reads fields from the front of a byte sequence. The length of the whole is checked before, so
that a field which is cut short is never read. -/
abbrev FieldReader (α : Type) := StateM (List UInt8) α

namespace FieldReader

def bytes (count : Nat) : FieldReader (List UInt8) := fun rest => (rest.take count, rest.drop count)

def u8 : FieldReader UInt8 := do return (← bytes 1).headD 0

/-- Any byte but zero is true. -/
def flag : FieldReader Bool := do return (← u8) != 0

def u16 (endian : Endian) : FieldReader UInt16 := do
  return UInt16.ofNat (endian.read (← bytes 2))

def u32 (endian : Endian) : FieldReader UInt32 := do
  return UInt32.ofNat (endian.read (← bytes 4))

def pointer (endian : Endian) : FieldReader (Option RecordId) := do
  let value ← u32 endian
  return if value = absentId then none else some value

def shortPointer (endian : Endian) : FieldReader (Option UInt16) := do
  let value ← u16 endian
  return if value = absentShortId then none else some value

end FieldReader

end GraphStore
