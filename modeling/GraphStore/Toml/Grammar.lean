import GraphStore.Text.Range
import GraphStore.Text.Reader
import GraphStore.Time.Calendar
import GraphStore.Toml.Basic

/-!
# The grammar of TOML

How documents are read.

    document  ::= { blanks line }
    line      ::= line break | comment | '[' key ']' | '[[' key ']]' | key '=' value
    key       ::= part { '.' part }
    value     ::= string | number | moment | truth value | array | table between braces
-/

set_option autoImplicit false

namespace GraphStore.Toml.Grammar

open Text

/-!
## Blanks
-/

def isBlankInLine (c : Char) : Bool := c = ' ' || c = '\t'

def blanks : Reader Unit := Reader.skip isBlankInLine

/-- Whether a character can be shown as itself: no control character but the tab. -/
def isPlain (c : Char) : Bool := c = '\t' || (0x20 ≤ c.toNat && c.toNat ≠ 0x7F)

def lineBreak : Reader Unit := Reader.sign '\n' <|> Reader.word ['\r', '\n']

/-- Reads the end of a line or of the document. -/
def lineEnd : Reader Unit := do
  if !(← get).isEmpty then lineBreak

/-- Reads a comment up to the end of its line. -/
def comment : Reader Unit := do
  Reader.sign '#'
  Reader.skip isPlain

/-- Reads what may follow a header or a value on its line. -/
def trailing : Reader Unit := do
  blanks
  let _ ← Reader.perhaps comment
  lineEnd

def layout : Reader Unit := do
  blanks
  let _ ← Reader.many do
    let _ ← Reader.perhaps comment
    lineBreak
    blanks

/-!
## Strings
-/

/-- Reads the character that a number of `count` digits to base 16 stands for. -/
def numberedCharacter (count : Nat) : Reader Char := fun rest =>
  let digits := (rest.take count).takeWhile isHexDigit
  let code := hexValue digits
  if digits.length = count && code.isValidChar then some (Char.ofNat code, rest.drop count)
  else none

/-- Reads what a backslash stands before. -/
def escape : Reader Char := do
  Reader.sign '\\'
  match ← Reader.any with
  | 'b' => return '\x08'
  | 't' => return '\t'
  | 'n' => return '\n'
  | 'f' => return '\x0c'
  | 'r' => return '\r'
  | '"' => return '"'
  | '\\' => return '\\'
  | 'u' => numberedCharacter 4
  | 'U' => numberedCharacter 8
  | _ => failure

/-- Reads a character that stands for itself between the given quotes. -/
def plainCharacter (quote : Char) : Reader Char := do
  let c ← Reader.any
  if isPlain c && c ≠ quote && (quote ≠ '"' || c ≠ '\\') then return c else failure

/-- Reads a character between the given quotes. Only double quotes know escapes. -/
def character (quote : Char) : Reader Char :=
  plainCharacter quote <|> (if quote = '"' then escape else failure)

def lineString (quote : Char) : Reader String := do
  Reader.sign quote
  let characters ← Reader.many (character quote)
  Reader.sign quote
  return String.ofList characters

/-- Passes over a backslash at the end of a line and all blanks and line breaks behind it. -/
def joint : Reader Unit := do
  Reader.sign '\\'
  blanks
  lineBreak
  let _ ← Reader.many (lineBreak <|> do let _ ← Reader.takeSome isBlankInLine)

/-- Reads one or two quotes inside a string. -/
def innerQuotes (quote : Char) : Reader (List Char) := do
  let quotes ← Reader.takeSome (· = quote)
  if quotes.length < 3 then return quotes else failure

def piece (quote : Char) : Reader (List Char) :=
  (do return [← character quote]) <|>
  (do lineBreak; return ['\n']) <|>
  (if quote = '"' then do joint; return [] else failure) <|>
  innerQuotes quote

/-- Reads a string on several lines, between three quotes. Up to two more may stand before the three
at the end, and a line break directly behind the first three does not count. -/
def blockString (quote : Char) : Reader String := do
  Reader.word [quote, quote, quote]
  let _ ← Reader.perhaps lineBreak
  let pieces ← Reader.many (piece quote)
  let quotes ← Reader.takeSome (· = quote)
  if quotes.length < 3 || 5 < quotes.length then failure
  return String.ofList (pieces.flatten ++ quotes.drop 3)

def string : Reader String :=
  blockString '"' <|> lineString '"' <|> blockString '\'' <|> lineString '\''

/-!
## Keys
-/

/-- The number of parts that a key must stay below, and of arrays and braces inside each other. -/
def depthLimit : Nat := 80

/-- Whether a character may stand in a key without quotes. -/
def isBareCharacter (c : Char) : Bool := c.isAlphanum || c = '-' || c = '_'

def keyPart : Reader String := do
  blanks
  let part ←
    lineString '"' <|> lineString '\'' <|>
      (do return String.ofList (← Reader.takeSome isBareCharacter))
  blanks
  return part

/-- Reads a key: the parts before the last, and the last. -/
def key : Reader (List String × String) := do
  let first ← keyPart
  let others ← Reader.many do
    Reader.sign '.'
    keyPart
  if depthLimit ≤ others.length + 1 then failure
  return ((first :: others).dropLast, (first :: others).getLast (by simp))

/-!
## Numbers
-/

def digits (isDigit : Char → Bool) : Reader (List Char) := do
  let digit : Reader Char := do
    let c ← Reader.any
    if isDigit c then return c else failure
  let first ← digit
  let others ← Reader.many (digit <|> do Reader.sign '_'; digit)
  return first :: others

/-- Reads a sign that may be missing, and says whether it is a minus. -/
def minus : Reader Bool :=
  (do Reader.sign '-'; return true) <|> (do Reader.sign '+'; return false) <|> return false

/-- Reads the digits of a number to base 10, which has no zeros in front. -/
def wholeDigits : Reader (List Char) :=
  (do Reader.sign '0'; return ['0']) <|> digits Char.isDigit

/-- The number that digits to any base up to 16 spell. -/
def valueTo (base : Nat) (digits : List Char) : Nat :=
  digits.foldl (fun value digit => value * base + hexDigitValue digit) 0

/-- Reads a number to another base than 10 behind its mark. -/
def basedInteger (mark : Char) (base : Nat) : Reader Int := do
  Reader.word ['0', mark]
  return valueTo base (← digits fun c => isHexDigit c && hexDigitValue c < base)

def plainInteger : Reader Int := do
  let negative ← minus
  let value := valueTo 10 (← wholeDigits)
  return if negative then -value else value

/-- Reads an integer of 64 bits. -/
def integer : Reader Int := do
  let value ←
    basedInteger 'x' 16 <|> basedInteger 'o' 8 <|> basedInteger 'b' 2 <|> plainInteger
  if (int64? value).isSome then return value else failure

def exponent : Reader Int := do
  Reader.sign 'e' <|> Reader.sign 'E'
  let negative ← minus
  let value := valueTo 10 (← digits Char.isDigit)
  return if negative then -value else value

/-- Reads a number with a fraction, an exponent or both. A number above all finite ones is refused,
one below them is not. -/
def finite : Reader Unit := do
  let negative ← minus
  let whole ← wholeDigits
  let fraction ← Reader.perhaps do
    Reader.sign '.'
    digits Char.isDigit
  let power ←
    match fraction with
    | some _ => Reader.perhaps exponent
    | none => some <$> exponent
  let places := fraction.getD []
  let shift : Int := power.getD 0 - places.length
  if !negative && isInfinite (valueTo 10 (whole ++ places)) shift then failure

def special : Reader Unit := do
  let _ ← minus
  Reader.word ['i', 'n', 'f'] <|> Reader.word ['n', 'a', 'n']

/-!
## Moments
-/

/-- Reads a number of two digits up to a bound. -/
def twoDigits (least greatest : Nat) : Reader Nat := do
  let value ← Reader.exactly 2
  if least ≤ value && value ≤ greatest then return value else failure

def date : Reader Unit := do
  let year ← Reader.exactly 4
  Reader.sign '-'
  let month ← twoDigits 1 12
  Reader.sign '-'
  let day ← twoDigits 1 31
  if !(Time.Date.mk year month day).isValid then failure

def timeOfDay : Reader Unit := do
  let _ ← twoDigits 0 23
  Reader.sign ':'
  let _ ← twoDigits 0 59
  Reader.sign ':'
  let _ ← twoDigits 0 60
  let _ ← Reader.perhaps do
    Reader.sign '.'
    Reader.takeSome Char.isDigit

def offset : Reader Unit :=
  Reader.sign 'Z' <|> Reader.sign 'z' <|> do
    Reader.sign '+' <|> Reader.sign '-'
    let _ ← twoDigits 0 23
    Reader.sign ':'
    let _ ← twoDigits 0 59

/-- Reads a date, a time of day, or both, the latter perhaps with an offset. -/
def moment : Reader Unit :=
  timeOfDay <|> do
    date
    let _ ← Reader.perhaps do
      Reader.sign 'T' <|> Reader.sign 't' <|> Reader.sign ' '
      timeOfDay
      let _ ← Reader.perhaps offset

/-!
## Values
-/

def separated {α : Type} (reader : Reader α) : Reader (List α) :=
  (do
    let first ← reader
    let others ← Reader.many do
      Reader.sign ','
      reader
    return first :: others) <|> return []

def scalar : Reader Toml :=
  (do return .string (← string)) <|>
  (do Reader.word ['t', 'r', 'u', 'e']; return .boolean true) <|>
  (do Reader.word ['f', 'a', 'l', 's', 'e']; return .boolean false) <|>
  (do moment; return .moment) <|>
  (do finite <|> special; return .float) <|>
  (do return .integer (← integer))

/-- Reads a key, the sign behind it, and a value. -/
def pair (value : Reader Toml) : Reader (List String × String × Toml) := do
  let (path, last) ← key
  Reader.sign '='
  blanks
  return (path, last, ← value)

/-- Reads an array. A comma may stand behind its last item. -/
def array (value : Reader Toml) : Reader Toml := do
  Reader.sign '['
  let items ← separated do
    layout
    let item ← value
    layout
    return item
  if !items.isEmpty then
    let _ ← Reader.perhaps (Reader.sign ',')
  layout
  Reader.sign ']'
  return .array items

def bracedTable (value : Reader Toml) : Reader Toml := do
  Reader.sign '{'
  let pairs ← separated do
    let found ← pair value
    blanks
    return found
  blanks
  Reader.sign '}'
  match ofPairs pairs with
  | some made => return made
  | none => failure

/-- Reads a value with fewer than `depth` arrays and braces inside each other. -/
def value : (depth : Nat) → Reader Toml
  | 0 => failure
  | 1 => scalar
  | depth + 1 => array (value depth) <|> bracedTable (value depth) <|> scalar

/-!
## Documents
-/

/-- Reads a header. Its two brackets stand next to each other if it has two. -/
def header : Reader Line :=
  (do
    Reader.word ['[', '[']
    let (path, last) ← key
    Reader.word [']', ']']
    return .nextHeader path last) <|>
  (do
    Reader.sign '['
    let (path, last) ← key
    Reader.sign ']'
    return .header path last)

def line : Reader Line :=
  (do lineBreak; return .blank) <|>
  (do comment; lineEnd; return .blank) <|>
  (do
    let found ← header
    trailing
    return found) <|>
  (do
    let (path, last, found) ← pair (value depthLimit)
    trailing
    return .pair path last found)

/-- Reads the lines of a document, in front of which a byte order mark may stand. -/
def document : Reader (List Line) := do
  let _ ← Reader.perhaps (Reader.sign '\ufeff')
  blanks
  Reader.many do
    let found ← line
    blanks
    return found

end GraphStore.Toml.Grammar

namespace GraphStore.Toml

def parse? (text : String) : Option Entries := do
  ofLines (← Grammar.document.readAll? text.toList)

end GraphStore.Toml
