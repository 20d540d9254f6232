import GraphStore.Text.Quoted
import GraphStore.Text.Reader

/-!
# Network addresses

Addresses of the fourth and the sixth version of the internet protocol, and ports, as texts.
-/

set_option autoImplicit false

namespace GraphStore

open Text

/-- An address of a host: four numbers of 8 bits, or eight of 16 bits. -/
inductive HostAddress where
  | v4 (a b c d : UInt8)
  | v6 (groups : Vector UInt16 8)
deriving Repr, DecidableEq

namespace HostAddress

def loopback : HostAddress := v4 127 0 0 1

/-!
## Writing
-/

def v4Text (a b c d : Nat) : String := s!"{a}.{b}.{c}.{d}"

def groupsText (groups : List UInt16) : String :=
  ":".intercalate (groups.map fun group => hexDigits group.toNat)

/-- The number of zeros at the front. -/
def leadingZeros (groups : List UInt16) : Nat := (groups.takeWhile (· == 0)).length

/-- The start and the length of the longest run of zeros, the first one of several. -/
def longestZeros (groups : List UInt16) : Nat × Nat :=
  (List.range groups.length).foldl
    (fun longest start =>
      let length := leadingZeros (groups.drop start)
      if longest.2 < length then (start, length) else longest)
    (0, 0)

/-- The text of an address. In the longer form two colons stand for the longest run of zeros, if it
has more than one, and an address that embeds a shorter one shows that. -/
def text : HostAddress → String
  | v4 a b c d => v4Text a.toNat b.toNat c.toNat d.toNat
  | v6 groups =>
      let groups := groups.toList
      if groups.take 6 = [0, 0, 0, 0, 0, 0xFFFF] then
        let high := (groups.getD 6 0).toNat
        let low := (groups.getD 7 0).toNat
        "::ffff:" ++ v4Text (high / 256) (high % 256) (low / 256) (low % 256)
      else
        let (start, length) := longestZeros groups
        if length ≤ 1 then groupsText groups
        else
          groupsText (groups.take start) ++ "::" ++ groupsText (groups.drop (start + length))

/-!
## Reading
-/

/-- Reads a number of the shorter form: up to three digits, without zeros in front. -/
def octet : Reader Nat := do
  let digits ← Reader.takeSome Char.isDigit
  if 3 < digits.length || (digits.head? = some '0' && 1 < digits.length) then failure
  let value := digitsValue digits
  if value < 256 then return value else failure

def v4Reader : Reader (Nat × Nat × Nat × Nat) := do
  let a ← octet
  Reader.sign '.'
  let b ← octet
  Reader.sign '.'
  let c ← octet
  Reader.sign '.'
  return (a, b, c, ← octet)

/-- Reads a number of the longer form: up to four digits to base 16. -/
def group : Reader Nat := do
  let digits ← Reader.takeSome isHexDigit
  if 4 < digits.length then failure
  return hexValue digits

/-- Reads up to `limit` numbers with colons between them, of which `before` are read already. The
last two may be written in the shorter form, which is told by the mark. -/
def groups (before : Nat) : (limit : Nat) → Reader (List Nat × Bool)
  | 0 => return ([], false)
  | limit + 1 => do
      let colon : Reader Unit := if before = 0 then pure () else Reader.sign ':'
      let embedded ←
        if limit = 0 then pure none else Reader.perhaps do colon; v4Reader
      match embedded with
      | some (a, b, c, d) => return ([a * 256 + b, c * 256 + d], true)
      | none =>
          match ← Reader.perhaps do colon; group with
          | none => return ([], false)
          | some value =>
              let (later, mixed) ← groups (before + 1) limit
              return (value :: later, mixed)

def v6Reader : Reader (List Nat) := do
  let (head, mixed) ← groups 0 8
  if head.length = 8 then return head
  else if mixed then failure
  else
    Reader.sign ':'
    Reader.sign ':'
    let (tail, _) ← groups 0 (7 - head.length)
    return head ++ List.replicate (8 - head.length - tail.length) 0 ++ tail

def ofOctets (octets : Nat × Nat × Nat × Nat) : HostAddress :=
  v4 (.ofNat octets.1) (.ofNat octets.2.1) (.ofNat octets.2.2.1) (.ofNat octets.2.2.2)

def ofGroups (groups : List Nat) : HostAddress :=
  v6 (Vector.ofFn fun place => UInt16.ofNat (groups.getD place 0))

def reader : Reader HostAddress :=
  (do return ofOctets (← v4Reader)) <|> (do return ofGroups (← v6Reader))

def parse? (text : String) : Option HostAddress := reader.readAll? text.toList

end HostAddress

/-- A host and a port. -/
structure SocketAddress where
  host : HostAddress
  port : UInt16
deriving Repr, DecidableEq

namespace SocketAddress

def text (address : SocketAddress) : String :=
  match address.host with
  | .v4 .. => s!"{address.host.text}:{address.port}"
  | .v6 _ => s!"[{address.host.text}]:{address.port}"

def portReader : Reader UInt16 := do
  Reader.sign ':'
  let value := digitsValue (← Reader.takeSome Char.isDigit)
  if value < 0x10000 then return UInt16.ofNat value else failure

def zone : Reader Unit := do
  Reader.sign '%'
  if 0x100000000 ≤ digitsValue (← Reader.takeSome Char.isDigit) then failure

/-- Reads an address with its port. The longer form stands in brackets. -/
def reader : Reader SocketAddress :=
  (do
    let host := HostAddress.ofOctets (← HostAddress.v4Reader)
    return ⟨host, ← portReader⟩) <|>
  (do
    Reader.sign '['
    let host := HostAddress.ofGroups (← HostAddress.v6Reader)
    let _ ← Reader.perhaps zone
    Reader.sign ']'
    return ⟨host, ← portReader⟩)

def parse? (text : String) : Option SocketAddress := reader.readAll? text.toList

end SocketAddress

end GraphStore
