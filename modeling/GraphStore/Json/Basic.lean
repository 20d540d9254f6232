import GraphStore.Text.Numeral
import GraphStore.Text.Quoted

/-!
# JSON values

A JSON value keeps its texts as they are written between the quotes, because only some readers care
what an escape stands for. Numbers are integers; any other number is kept as a mark that no reader
of this library accepts.
-/

set_option autoImplicit false

namespace GraphStore

open Text

/-- A text in a JSON document, as it stands between its quotes. -/
structure JsonText where
  written : List Char
deriving Repr, DecidableEq, Inhabited

/-- A JSON value. -/
inductive Json where
  | null
  | bool (value : Bool)
  | integer (value : Int)
  /-- A number with a fraction, an exponent or a sign before zero. -/
  | real
  /-- A number beyond the range of floating-point numbers. -/
  | excessive
  | string (text : JsonText)
  | array (items : List Json)
  /-- The members in the order of the document, repeated names included. -/
  | object (members : List (JsonText × Json))
deriving Inhabited

namespace JsonText

def escaped (c : Char) : List Char :=
  if c = '"' then ['\\', '"']
  else if c = '\\' then ['\\', '\\']
  else if c = '\x08' then ['\\', 'b']
  else if c = '\x0c' then ['\\', 'f']
  else if c = '\n' then ['\\', 'n']
  else if c = '\r' then ['\\', 'r']
  else if c = '\t' then ['\\', 't']
  else if c.toNat < 0x20 then '\\' :: 'u' :: (paddedHexDigits 4 c.toNat).toList
  else [c]

def ofString (text : String) : JsonText := ⟨text.toList.flatMap escaped⟩

def unit? (a b c d : Char) : Option Nat :=
  if [a, b, c, d].all isHexDigit then some (hexValue [a, b, c, d]) else none

/-- The character that the letter behind a backslash stands for. -/
def shortEscape? (c : Char) : Option Char :=
  match c with
  | '"' => some '"'
  | '\\' => some '\\'
  | '/' => some '/'
  | 'b' => some '\x08'
  | 'f' => some '\x0c'
  | 'n' => some '\n'
  | 'r' => some '\r'
  | 't' => some '\t'
  | _ => none

/-- Whether a number is the first half of a pair that spells one character. -/
def isHighHalf (unit : Nat) : Bool := 0xD800 ≤ unit && unit < 0xDC00

def isLowHalf (unit : Nat) : Bool := 0xDC00 ≤ unit && unit < 0xE000

/-- What a written text stands for. Half of a pair without the other half stands for nothing. -/
def unescape? : List Char → Option (List Char)
  | [] => some []
  | '\\' :: 'u' :: a :: b :: c :: d :: rest =>
      match unit? a b c d with
      | none => none
      | some unit =>
          if isLowHalf unit then none
          else if isHighHalf unit then
            match rest with
            | '\\' :: 'u' :: e :: f :: g :: h :: rest =>
                match unit? e f g h with
                | none => none
                | some low =>
                    if isLowHalf low then
                      let code := 0x10000 + (unit - 0xD800) * 0x400 + (low - 0xDC00)
                      (unescape? rest).map (Char.ofNat code :: ·)
                    else none
            | _ => none
          else (unescape? rest).map (Char.ofNat unit :: ·)
  | '\\' :: c :: rest =>
      match shortEscape? c with
      | none => none
      | some character => (unescape? rest).map (character :: ·)
  | c :: rest => (unescape? rest).map (c :: ·)

def value? (text : JsonText) : Option String := (unescape? text.written).map String.ofList

end JsonText

namespace Json

def ofString (text : String) : Json := .string (.ofString text)

def ofNat (value : Nat) : Json := .integer value

def ofList {α : Type} (encode : α → Json) (items : List α) : Json := .array (items.map encode)

/-- A value that may be missing, with `null` in its place. -/
def ofOption {α : Type} (encode : α → Json) : Option α → Json
  | some value => encode value
  | none => .null

def ofMembers (members : List (String × Json)) : Json :=
  .object (members.map fun member => (.ofString member.1, member.2))

mutual

/-- A value as a JSON document without blanks. -/
def characters : Json → List Char
  | null => ['n', 'u', 'l', 'l']
  | bool true => ['t', 'r', 'u', 'e']
  | bool false => ['f', 'a', 'l', 's', 'e']
  | integer value => (toString value).toList
  | real => ['0', '.', '0']
  | excessive => ['1', 'e', '9', '9', '9']
  | string text => '"' :: text.written ++ ['"']
  | array items => '[' :: itemCharacters items ++ [']']
  | object members => '{' :: memberCharacters members ++ ['}']

def itemCharacters : List Json → List Char
  | [] => []
  | [item] => item.characters
  | item :: rest => item.characters ++ ',' :: itemCharacters rest

def memberCharacters : List (JsonText × Json) → List Char
  | [] => []
  | [(name, value)] => '"' :: name.written ++ '"' :: ':' :: value.characters
  | (name, value) :: rest =>
      '"' :: name.written ++ '"' :: ':' :: (value.characters ++ ',' :: memberCharacters rest)

end

mutual

/-- Whether a value can be held before it is known what it stands for: its arrays and objects are
nested at most `depth` deep, every text in it stands for something, and every number is in range. -/
def isSettled (depth : Nat) : Json → Bool
  | excessive => false
  | string text => text.value?.isSome
  | array items => 0 < depth && areSettled (depth - 1) items
  | object members => 0 < depth && areMembersSettled (depth - 1) members
  | _ => true

def areSettled (depth : Nat) : List Json → Bool
  | [] => true
  | item :: rest => item.isSettled depth && areSettled depth rest

def areMembersSettled (depth : Nat) : List (JsonText × Json) → Bool
  | [] => true
  | (name, value) :: rest =>
      name.value?.isSome && value.isSettled depth && areMembersSettled depth rest

end

/-- A value as a JSON document without blanks. -/
def render (json : Json) : String := String.ofList json.characters

end Json

end GraphStore
