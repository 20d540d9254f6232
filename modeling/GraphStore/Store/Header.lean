import GraphStore.Bytes.Checksum
import GraphStore.Store.Kind

/-!
# Headers of store files

The first 15 bytes of a store file say what it holds and in which byte order. Two of them are a
check over the other thirteen.
-/

set_option autoImplicit false

namespace GraphStore

open Text

def headerSize : Nat := 15

/-- The first bytes of a store file. -/
structure StoreHeader where
  formatVersion : UInt8
  kind : StoreKind
  headerVersion : UInt8
  magic : UInt16
  recordSize : UInt8
  endian : Endian
  /-- Two bytes kept for later use. -/
  parameters : UInt8 × UInt8
  /-- The number of the last transaction in the file. -/
  transaction : UInt8
  /-- Whether the file was last closed in a good state. -/
  state : UInt8
  /-- Two bytes kept for later use. -/
  reserved : UInt8 × UInt8
deriving Repr, DecidableEq

namespace StoreHeader

def storeMagic : UInt16 := 0x5347

/-- The newest format that can be read. -/
def currentFormat : UInt8 := 1

def fresh (kind : StoreKind) (endian : Endian) : StoreHeader :=
  { formatVersion := currentFormat, kind, headerVersion := 1, magic := storeMagic
    recordSize := UInt8.ofNat kind.recordSize, endian, parameters := (0, 0), transaction := 0
    state := 1, reserved := (0, 0) }

/-- The check over the bytes before and behind its own place. -/
def checksum (front back : List UInt8) : UInt16 := (crc32 (front ++ back)).toUInt16

def front (header : StoreHeader) : List UInt8 :=
  [header.formatVersion, header.kind.id, header.headerVersion] ++
    Field.u16 header.endian header.magic ++ [header.recordSize, header.endian.flag] ++
    [header.parameters.1, header.parameters.2, header.transaction]

/-- The bytes behind the check. -/
def back (header : StoreHeader) : List UInt8 := [header.state, header.reserved.1, header.reserved.2]

def encode (header : StoreHeader) : List UInt8 :=
  header.front ++ Field.u16 header.endian (checksum header.front header.back) ++ header.back

/-- Reads a header. The byte order is read first, because the other fields depend on it; then the
kind and the check are tested. Errors name the file by `path`. -/
def decode (path : String) (bytes : List UInt8) : Except Error StoreHeader := do
  if bytes.length ≠ headerSize then
    throw (.malformedRecord "store header" headerSize bytes.length)
  let flag := bytes.getD 6 0
  let some endian := Endian.ofFlag? flag
    | throw (.incompatibleStore path s!"invalid endianness flag {flag}")
  let id := bytes.getD 1 0
  let some kind := StoreKind.ofId? id
    | throw (.incompatibleStore path s!"unknown store file type id {id}")
  let stored := UInt16.ofNat (endian.read ((bytes.drop 10).take 2))
  if checksum (bytes.take 10) (bytes.drop 12) ≠ stored then
    throw (.incompatibleStore path
      s!"checksum mismatch (stored 0x{paddedHexDigits 4 stored.toNat})")
  return {
    formatVersion := bytes.getD 0 0, kind, headerVersion := bytes.getD 2 0
    magic := UInt16.ofNat (endian.read ((bytes.drop 3).take 2)), recordSize := bytes.getD 5 0
    endian, parameters := (bytes.getD 7 0, bytes.getD 8 0), transaction := bytes.getD 9 0
    state := bytes.getD 12 0, reserved := (bytes.getD 13 0, bytes.getD 14 0) }

/-- Checks a header against the kind of file that its reader expects. -/
def check (header : StoreHeader) (expected : StoreKind) (path : String) : Except Error Unit :=
  let refuse (reason : String) : Except Error Unit := .error (.incompatibleStore path reason)
  if header.magic ≠ storeMagic then
    refuse s!"bad magic number 0x{paddedHexDigits 4 header.magic.toNat}"
  else if header.kind ≠ expected then
    refuse s!"expected {expected.name} store, found {header.kind.name}"
  else if currentFormat < header.formatVersion then
    refuse s!"unsupported format version {header.formatVersion}"
  else if header.recordSize.toNat ≠ expected.recordSize then
    refuse s!"declared record size {header.recordSize} does not match {expected.recordSize}"
  else .ok ()

/-- Reads a header and checks it against the kind of file that its reader expects. -/
def decodeAs (expected : StoreKind) (path : String) (bytes : List UInt8) :
    Except Error StoreHeader := do
  let header ← decode path bytes
  header.check expected path
  return header

end StoreHeader

end GraphStore
