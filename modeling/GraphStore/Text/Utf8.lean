/-!
# UTF-8

Text as bytes and back. Decoding reports the first byte that belongs to no character and how many
bytes the faulty sequence takes, so that a caller can name the place.
-/

set_option autoImplicit false

namespace GraphStore.Text.Utf8

/-- Where decoding stopped: the bytes before `index` are text. `width` counts the bytes of the
faulty sequence; it is absent when the input ends inside a sequence that could still be
completed. -/
structure Fault where
  index : Nat
  width : Option Nat
deriving Repr, DecidableEq

/-- The wording of a fault. -/
def Fault.message (fault : Fault) : String :=
  match fault.width with
  | some width => s!"invalid utf-8 sequence of {width} bytes from index {fault.index}"
  | none => s!"incomplete utf-8 byte sequence from index {fault.index}"

def encode (text : String) : List UInt8 :=
  text.toList.flatMap String.utf8EncodeChar

def size (text : String) : Nat := (encode text).length

/-- The number of bytes that a character with this first byte takes, and 0 for a byte that starts
no character. -/
def width (lead : UInt8) : Nat :=
  if lead < 0x80 then 1
  else if lead < 0xC2 then 0
  else if lead < 0xE0 then 2
  else if lead < 0xF0 then 3
  else if lead < 0xF5 then 4
  else 0

/-- Whether `byte` may directly follow `lead`. Four first bytes narrow the range of their follower:
it keeps out over-long forms, surrogates and values above the last code point. -/
def mayFollow (lead byte : UInt8) : Bool :=
  if lead = 0xE0 then 0xA0 ≤ byte && byte ≤ 0xBF
  else if lead = 0xED then 0x80 ≤ byte && byte ≤ 0x9F
  else if lead = 0xF0 then 0x90 ≤ byte && byte ≤ 0xBF
  else if lead = 0xF4 then 0x80 ≤ byte && byte ≤ 0x8F
  else 0x80 ≤ byte && byte ≤ 0xBF

def isContinuation (byte : UInt8) : Bool := 0x80 ≤ byte && byte ≤ 0xBF

/-- How many of the first `wanted` bytes continue the character begun by `lead`. -/
def continued (lead : UInt8) : (wanted : Nat) → List UInt8 → Nat
  | 0, _ => 0
  | _, [] => 0
  | wanted + 1, byte :: rest =>
      if mayFollow lead byte then 1 + ((rest.take wanted).takeWhile isContinuation).length else 0

/-- The code point that a first byte of the given width and its followers spell. -/
def codePoint (width : Nat) (lead : UInt8) (followers : List UInt8) : Nat :=
  let high := if width ≤ 1 then lead.toNat else lead.toNat % (1 <<< (7 - width))
  followers.foldl (fun value byte => value * 64 + byte.toNat % 64) high

/-- Reads characters from `bytes`, which begin at `index` of the whole input. -/
def decodeFrom (index : Nat) (read : List Char) : List UInt8 → Except Fault (List Char)
  | [] => .ok read.reverse
  | lead :: rest =>
      let width := width lead
      if width = 0 then .error ⟨index, some 1⟩
      else
        let found := continued lead (width - 1) rest
        if found = width - 1 then
          decodeFrom (index + width)
            (Char.ofNat (codePoint width lead (rest.take found)) :: read) (rest.drop found)
        else if rest.length = found then .error ⟨index, none⟩
        else .error ⟨index, some (found + 1)⟩
  termination_by bytes => bytes.length
  decreasing_by simp only [List.length_cons, List.length_drop]; omega

/-- The text that the bytes spell, or the first fault in them. -/
def decode (bytes : List UInt8) : Except Fault String :=
  (decodeFrom 0 [] bytes).map String.ofList

theorem encode_append (left right : String) :
    encode (left ++ right) = encode left ++ encode right := by
  simp [encode]

end GraphStore.Text.Utf8
