import GraphStore.Json.Basic
import GraphStore.Text.Numeral
import GraphStore.Text.Range

/-!
# Reading JSON

A document is cut into signs, texts and other scalars. The values are then put together with a
stack of the arrays and objects that are still open.
-/

set_option autoImplicit false

namespace GraphStore.Json

open Text

/-- A piece of a JSON document. -/
inductive Piece where
  | openBrace
  | closeBrace
  | openBracket
  | closeBracket
  | colon
  | comma
  | text (text : JsonText)
  /-- A number or one of the three words. -/
  | scalar (value : Json)

def isSpace (c : Char) : Bool := c = ' ' || c = '\n' || c = '\r' || c = '\t'

/-- The number of characters up to the closing quote of a text, if there is one and everything
before it is well formed. -/
def textLength (read : Nat) : List Char → Option Nat
  | [] => none
  | '"' :: _ => some read
  | '\\' :: 'u' :: a :: b :: c :: d :: rest =>
      if (JsonText.unit? a b c d).isSome then textLength (read + 6) rest else none
  | '\\' :: c :: rest =>
      if (JsonText.shortEscape? c).isSome then textLength (read + 2) rest else none
  | c :: rest => if c.toNat < 0x20 then none else textLength (read + 1) rest

/-- The exponent that characters spell. No characters spell zero. -/
def exponent? : List Char → Option Int
  | [] => some 0
  | mark :: rest =>
      if mark != 'e' && mark != 'E' then none
      else
        match rest with
        | '+' :: digits => (parseDigits? digits).map Int.ofNat
        | '-' :: digits => (parseDigits? digits).map fun value => -Int.ofNat value
        | digits => (parseDigits? digits).map Int.ofNat

/-- The digits of a fraction and the exponent behind them. Either may be missing. -/
def fraction? : List Char → Option (List Char × Int)
  | '.' :: rest =>
      let places := rest.takeWhile Char.isDigit
      if places.isEmpty then none
      else (exponent? (rest.dropWhile Char.isDigit)).map fun exponent => (places, exponent)
  | rest => (exponent? rest).map fun exponent => ([], exponent)

/-- Whether a number is beyond the range of floating-point numbers. Only as many of its digits count
as make a number of 64 bits. -/
def isExcessive (whole places : List Char) (exponent : Int) : Bool :=
  let (value, left) := leadingDigits 0x10000000000000000 0 whole
  let (value, ignored) := leadingDigits 0x10000000000000000 value places
  let shift : Int := left.length + ignored.length - places.length
  isInfiniteProduct value (exponent + shift)

def number? (characters : List Char) : Option Json := do
  let negative := characters.head? = some '-'
  let unsigned := if negative then characters.drop 1 else characters
  let whole := unsigned.takeWhile Char.isDigit
  let tail := unsigned.dropWhile Char.isDigit
  if whole.isEmpty || (whole.head? = some '0' && 1 < whole.length) then none
  let (places, exponent) ← fraction? tail
  if isExcessive whole places exponent then return .excessive
  else if !tail.isEmpty || (negative && digitsValue whole = 0) then return .real
  else if negative then return .integer (-Int.ofNat (digitsValue whole))
  else return .integer (digitsValue whole)

/-- Whether a character can belong to a number or a word. -/
def isScalarCharacter (c : Char) : Bool :=
  c.isAlphanum || c = '-' || c = '+' || c = '.'

/-- The value that a number or a word stands for. -/
def scalar? (characters : List Char) : Option Json :=
  match characters with
  | ['n', 'u', 'l', 'l'] => some .null
  | ['t', 'r', 'u', 'e'] => some (.bool true)
  | ['f', 'a', 'l', 's', 'e'] => some (.bool false)
  | _ => number? characters

/-- The piece that a document begins with, and the number of its characters beyond the first. -/
def piece? (first : Char) (rest : List Char) : Option (Piece × Nat) :=
  if first = '{' then some (.openBrace, 0)
  else if first = '}' then some (.closeBrace, 0)
  else if first = '[' then some (.openBracket, 0)
  else if first = ']' then some (.closeBracket, 0)
  else if first = ':' then some (.colon, 0)
  else if first = ',' then some (.comma, 0)
  else if first = '"' then
    (textLength 0 rest).map fun length => (.text ⟨rest.take length⟩, length + 1)
  else
    let beyond := rest.takeWhile isScalarCharacter
    (scalar? (first :: beyond)).map fun value => (.scalar value, beyond.length)

/-- The pieces of a document, put in front of `read` in the opposite order. -/
def piecesFrom (read : List Piece) : List Char → Option (List Piece)
  | [] => some read.reverse
  | first :: rest =>
      if isSpace first then piecesFrom read rest
      else
        match piece? first rest with
        | none => none
        | some (piece, beyond) => piecesFrom (piece :: read) (rest.drop beyond)
  termination_by characters => characters.length
  decreasing_by all_goals simp only [List.length_cons, List.length_drop]; omega

/-- An array or an object that is still open, with what it holds so far, the last first. -/
inductive Open where
  | array (items : List Json)
  | object (members : List (JsonText × Json)) (name : JsonText)

/-- What may come next. -/
inductive Awaited where
  | value
  /-- A value or the end of an array that holds nothing yet. -/
  | firstItem
  /-- A name or the end of an object that holds nothing yet. -/
  | firstName
  /-- A name in an object with these members. -/
  | name (members : List (JsonText × Json))
  | colon (members : List (JsonText × Json)) (name : JsonText)
  /-- A comma or an end, behind this value. -/
  | after (value : Json)

/-- Reads the first piece of a value. -/
def opening (stack : List Open) : Piece → Option (Awaited × List Open)
  | .openBrace => some (.firstName, stack)
  | .openBracket => some (.firstItem, stack)
  | .text text => some (.after (.string text), stack)
  | .scalar value => some (.after value, stack)
  | _ => none

def following (awaited : Awaited) (stack : List Open) (piece : Piece) :
    Option (Awaited × List Open) :=
  match awaited, piece, stack with
  | .value, piece, stack => opening stack piece
  | .firstItem, .closeBracket, stack => some (.after (.array []), stack)
  | .firstItem, piece, stack => opening (.array [] :: stack) piece
  | .firstName, .closeBrace, stack => some (.after (.object []), stack)
  | .firstName, .text name, stack => some (.colon [] name, stack)
  | .name members, .text name, stack => some (.colon members name, stack)
  | .colon members name, .colon, stack => some (.value, .object members name :: stack)
  | .after value, .comma, .array items :: below => some (.value, .array (value :: items) :: below)
  | .after value, .closeBracket, .array items :: below =>
      some (.after (.array (value :: items).reverse), below)
  | .after value, .comma, .object members name :: below =>
      some (.name ((name, value) :: members), below)
  | .after value, .closeBrace, .object members name :: below =>
      some (.after (.object ((name, value) :: members).reverse), below)
  | _, _, _ => none

def assemble : Awaited → List Open → List Piece → Option Json
  | .after value, [], [] => some value
  | _, _, [] => none
  | awaited, stack, piece :: rest =>
      match following awaited stack piece with
      | none => none
      | some (next, stack) => assemble next stack rest

def parse? (document : String) : Option Json := do
  assemble .value [] (← piecesFrom [] document.toList)

end GraphStore.Json
