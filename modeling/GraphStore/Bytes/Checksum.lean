/-!
# CRC-32

The cyclic redundancy check of 32 bits with the reflected polynomial `EDB88320`.
-/

set_option autoImplicit false

namespace GraphStore

def Crc32.shift (remainder : UInt32) : UInt32 :=
  if remainder &&& 1 = 1 then (remainder >>> 1) ^^^ 0xEDB88320 else remainder >>> 1

def Crc32.update (remainder : UInt32) (byte : UInt8) : UInt32 :=
  (List.range 8).foldl (fun remainder _ => Crc32.shift remainder) (remainder ^^^ byte.toUInt32)

def crc32 (bytes : List UInt8) : UInt32 :=
  bytes.foldl Crc32.update 0xFFFFFFFF ^^^ 0xFFFFFFFF

end GraphStore
