import GraphStore.Query.Token
import GraphStore.Text.Blank
import GraphStore.Text.Numeral
import GraphStore.Text.Quoted

/-!
# The lexer

Reads a text character by character, with room for one character that is pushed back, and hands out
one token for each call. Line and column are kept from character to character; pushing a character
back restores those saved when it was read.
-/

set_option autoImplicit false

namespace GraphStore.Query

open GraphStore.Text

/-- What ends a statement. -/
inductive Separator where
  | semicolon
  | newline
  /-- A semicolon or a line break. -/
  | both
deriving Repr, DecidableEq, Inhabited

namespace Separator

def acceptsSemicolon : Separator → Bool
  | semicolon => true
  | newline => false
  | both => true

def acceptsNewline : Separator → Bool
  | semicolon => false
  | newline => true
  | both => true

def name : Separator → String
  | semicolon => "semicolon"
  | newline => "newline"
  | both => "both"

def ofName? (name : String) : Option Separator :=
  [semicolon, newline, both].find? (·.name == name)

def parse (text : String) : Except String Separator :=
  match text.map Char.toLower with
  | "semicolon" => .ok semicolon
  | "newline" => .ok newline
  | "both" => .ok both
  | other =>
      .error s!"unknown statement separator '{other}' (expected semicolon, newline or both)"

end Separator

/-- Whether a character may stand in a word behind its first letter. -/
def isWordCharacter (c : Char) : Bool := c.isAlphanum || c = '_'

/-- The greatest number of digits of a character given by its number. -/
def maxEscapeDigits : Nat := 4

/-- A lexer at some place in a text. -/
structure Lexer where
  /-- The characters that were never read. -/
  characters : List Char
  /-- The character that was read and pushed back. -/
  pushed : Option Char
  /-- The position of the next character. -/
  position : Position
  /-- The position of the character that was read last. -/
  beforeLast : Position
deriving Repr, DecidableEq

namespace Lexer

/-!
## Single characters
-/

def ofText (text : String) : Lexer := ⟨text.toList, none, .start, .start⟩

def read (lexer : Lexer) : Option (Char × Lexer) :=
  match lexer.pushed, lexer.characters with
  | some c, rest | none, c :: rest =>
      some (c, ⟨rest, none, lexer.position.after c, lexer.position⟩)
  | none, [] => none

/-- Pushes back the character that was read last. -/
def unread (lexer : Lexer) (c : Char) : Lexer :=
  { lexer with pushed := some c, position := lexer.beforeLast }

/-- The next character, which stays the next one. -/
def peek (lexer : Lexer) : Option Char × Lexer :=
  match lexer.read with
  | some (c, next) => (some c, next.unread c)
  | none => (none, lexer)

/-- All characters that are still to be read. -/
def ahead (lexer : Lexer) : List Char := lexer.pushed.toList ++ lexer.characters

section

variable {lexer next : Lexer} {c : Char}

theorem ahead_of_read (found : lexer.read = some (c, next)) : lexer.ahead = c :: next.ahead := by
  unfold read at found
  split at found
  next held =>
    cases found
    simp [ahead, held]
  next held rest =>
    cases found
    simp [ahead, held, rest]
  next => cases found

theorem ahead_of_read_none (ended : lexer.read = none) : lexer.ahead = [] := by
  unfold read at ended
  split at ended
  next => cases ended
  next => cases ended
  next held rest => simp [ahead, held, rest]

theorem pushed_of_read (found : lexer.read = some (c, next)) : next.pushed = none := by
  unfold read at found
  split at found <;> cases found <;> rfl

theorem ahead_unread (lexer : Lexer) (c : Char) (free : lexer.pushed = none) :
    (lexer.unread c).ahead = c :: lexer.ahead := by
  simp [ahead, unread, free]

@[grind →]
theorem length_of_read (found : lexer.read = some (c, next)) :
    next.ahead.length < lexer.ahead.length := by
  rw [ahead_of_read found]
  exact Nat.lt_succ_self _

@[grind →]
theorem ahead_unread_of_read (found : lexer.read = some (c, next)) :
    (next.unread c).ahead = lexer.ahead := by
  rw [ahead_unread next c (pushed_of_read found), ahead_of_read found]

theorem ahead_peek (lexer : Lexer) : lexer.peek.2.ahead = lexer.ahead := by
  unfold peek
  split
  next found => exact ahead_unread_of_read found
  next => rfl

end

/-!
## Comments and words
-/

/-- Reads on behind `text`, last character first, for as long as characters are accepted, and pushes
back the first other one. -/
def readWhile (accepts : Char → Bool) (text : List Char) (lexer : Lexer) : List Char × Lexer :=
  match _found : lexer.read with
  | some (c, next) =>
      if accepts c then next.readWhile accepts (c :: text) else (text, next.unread c)
  | none => (text, lexer)
  termination_by lexer.ahead.length
  decreasing_by exact length_of_read _found

theorem length_readWhile (accepts : Char → Bool) (text : List Char) (lexer : Lexer) :
    (lexer.readWhile accepts text).2.ahead.length ≤ lexer.ahead.length := by
  fun_induction readWhile accepts text lexer <;> grind

/-- What a scan gives for the token, the comment or the blank that it passes. -/
abbrev Outcome := Except Error (Option Token)

/-- Reads to the end of a comment that begins at `start`, given how many comments are open and the
last character that does not belong to a mark. -/
def blockComment (start : Position) (depth : Nat) (previous : Char) (lexer : Lexer) :
    Outcome × Lexer :=
  match _found : lexer.read with
  | some (c, next) =>
      if previous = '/' && c = '*' then next.blockComment start (depth + 1) '\x00'
      else if previous = '*' && c = '/' then
        if depth ≤ 1 then (.ok none, next) else next.blockComment start (depth - 1) '\x00'
      else next.blockComment start depth c
  | none => (.error (.syntaxError start "Unterminated comment"), lexer)
  termination_by lexer.ahead.length
  decreasing_by all_goals exact length_of_read _found

theorem length_blockComment (start : Position) (depth : Nat) (previous : Char) (lexer : Lexer) :
    (lexer.blockComment start depth previous).2.ahead.length ≤ lexer.ahead.length := by
  fun_induction blockComment start depth previous lexer with
  | case1 depth previous lexer c next found _ ih =>
      exact Nat.le_trans ih (Nat.le_of_lt (length_of_read found))
  | case2 depth previous lexer c next found => exact Nat.le_of_lt (length_of_read found)
  | case3 depth previous lexer c next found _ _ _ ih =>
      exact Nat.le_trans ih (Nat.le_of_lt (length_of_read found))
  | case4 depth previous lexer c next found _ _ ih =>
      exact Nat.le_trans ih (Nat.le_of_lt (length_of_read found))
  | case5 => exact Nat.le_refl _

/-- Reads what follows a slash at `start`. A line comment ends before its line break. -/
def comment (start : Position) (lexer : Lexer) : Outcome × Lexer :=
  match lexer.read with
  | some ('/', next) => (.ok none, (next.readWhile (· ≠ '\n') []).2)
  | some ('*', next) => next.blockComment start 1 '\x00'
  | some (_, next) => (.error (.syntaxError start "Unexpected character '/'"), next)
  | none => (.error (.syntaxError start "Unexpected character '/'"), lexer)

theorem length_comment (start : Position) (lexer : Lexer) :
    (lexer.comment start).2.ahead.length ≤ lexer.ahead.length := by
  fun_cases comment start lexer <;> grind [length_readWhile, length_blockComment]

/-- Reads on behind the first letter of a word, which is a keyword or a name. -/
def word (start : Position) (first : Char) (lexer : Lexer) : Outcome × Lexer :=
  let letters := lexer.readWhile isWordCharacter [first]
  let text := String.ofList letters.1.reverse
  (.ok (some ⟨(TokenKind.keyword? text).getD .name, some text, start⟩), letters.2)

/-!
## Numbers and strings
-/

/-- Reads a number on behind `digits`, last digit first. -/
def number (start : Position) (digits : List Char) (lexer : Lexer) : Outcome × Lexer :=
  match _found : lexer.read with
  | some (c, next) =>
      if c.isDigit then next.number start (c :: digits)
      else if c.isAlpha || c = '_' then
        let text := String.ofList digits.reverse
        (.error (.syntaxError next.beforeLast
          s!"Unexpected {quotedCharacter c} immediately after number {text}"), next)
      else (.ok (some ⟨.number, some (String.ofList digits.reverse), start⟩), next.unread c)
  | none => (.ok (some ⟨.number, some (String.ofList digits.reverse), start⟩), lexer)
  termination_by lexer.ahead.length
  decreasing_by exact length_of_read _found

theorem length_number (start : Position) (digits : List Char) (lexer : Lexer) :
    (lexer.number start digits).2.ahead.length ≤ lexer.ahead.length := by
  fun_induction number start digits lexer <;> grind

/-- Reads digits of a character's number, at most so many. -/
def escapeDigits (lexer : Lexer) : (limit : Nat) → List Char × Lexer
  | 0 => ([], lexer)
  | limit + 1 =>
      match lexer.read with
      | some (c, next) =>
          if isHexDigit c then
            let later := next.escapeDigits limit
            (c :: later.1, later.2)
          else ([], next.unread c)
      | none => ([], lexer)

theorem length_escapeDigits (lexer : Lexer) (limit : Nat) :
    (lexer.escapeDigits limit).2.ahead.length ≤ lexer.ahead.length := by
  fun_induction escapeDigits lexer limit <;> grind

/-- The character that is written behind a backslash, which stands at `start`. -/
def escape (start : Position) (lexer : Lexer) : Except Error Char × Lexer :=
  match lexer.read with
  | some ('"', next) => (.ok '"', next)
  | some ('\\', next) => (.ok '\\', next)
  | some ('/', next) => (.ok '/', next)
  | some ('n', next) => (.ok '\n', next)
  | some ('r', next) => (.ok '\r', next)
  | some ('t', next) => (.ok '\t', next)
  | some ('0', next) => (.ok '\x00', next)
  | some ('x', next) =>
      let digits := next.escapeDigits maxEscapeDigits
      let code := hexValue digits.1
      if digits.1.isEmpty then
        (.error (.syntaxError start "Expected hex digits after \\x"), digits.2)
      else if code.isValidChar then (.ok (Char.ofNat code), digits.2)
      else
        let shown := String.ofList ((Nat.toDigits 16 code).map Char.toUpper)
        (.error (.syntaxError start s!"\\x{shown} is not a valid character"), digits.2)
  | some (other, next) =>
      (.error (.syntaxError start s!"Invalid escape sequence \\{other}"), next)
  | none => (.error (.syntaxError start "Unterminated string"), lexer)

theorem length_escape (start : Position) (lexer : Lexer) :
    (lexer.escape start).2.ahead.length ≤ lexer.ahead.length := by
  fun_cases escape start lexer <;> grind [length_escapeDigits]

/-- Reads a string on behind `text`, last character first. Its quote stands at `start`. -/
def string (start : Position) (text : List Char) (lexer : Lexer) : Outcome × Lexer :=
  match _found : lexer.read with
  | some (c, next) =>
      if c = '"' then (.ok (some ⟨.string, some (String.ofList text.reverse), start⟩), next)
      else if c = '\\' then
        let escaped := next.escape lexer.position
        match escaped.1 with
        | .ok character => escaped.2.string start (character :: text)
        | .error fault => (.error fault, escaped.2)
      else if isControl c then
        (.error (.syntaxError lexer.position
          s!"Control character {quotedCharacter c} in string"), next)
      else next.string start (c :: text)
  | none => (.error (.syntaxError start "Unterminated string"), lexer)
  termination_by lexer.ahead.length
  decreasing_by
    · exact Nat.lt_of_le_of_lt (length_escape lexer.position next) (length_of_read _found)
    · exact length_of_read _found

theorem length_string (start : Position) (text : List Char) (lexer : Lexer) :
    (lexer.string start text).2.ahead.length ≤ lexer.ahead.length := by
  fun_induction string start text lexer <;> grind [length_escape]

/-!
## Tokens
-/

/-- Reads on behind the character `c`, which stands at `start`, to the end of the blank, the comment
or the token that it begins. -/
def turn (separator : Separator) (start : Position) (c : Char) (lexer : Lexer) : Outcome × Lexer :=
  let sign (kind : TokenKind) : Outcome × Lexer := (.ok (some ⟨kind, none, start⟩), lexer)
  let unexpected : Error := .syntaxError start s!"Unexpected character {quotedCharacter c}"
  if c = '\n' && separator.acceptsNewline then sign .endOfStatement
  else if isBlank c then (.ok none, lexer)
  else if c = '/' then lexer.comment start
  else if c = ';' && separator.acceptsSemicolon then sign .endOfStatement
  else if c = '{' then sign .openBrace
  else if c = '}' then sign .closeBrace
  else if c = '[' then sign .openBracket
  else if c = ']' then sign .closeBracket
  else if c = ',' then sign .comma
  else if c = '=' then sign .assign
  else if c = '"' then lexer.string start []
  else if c.isAlpha then lexer.word start c
  else if c.isDigit then lexer.number start [c]
  else if c = '-' || c = '+' then
    let peeked := lexer.peek
    if peeked.1.any Char.isDigit then peeked.2.number start [c] else (.error unexpected, peeked.2)
  else (.error unexpected, lexer)

theorem length_turn (separator : Separator) (start : Position) (c : Char) (lexer : Lexer) :
    (lexer.turn separator start c).2.ahead.length ≤ lexer.ahead.length := by
  fun_cases turn separator start c lexer <;>
    grind [ahead_peek, length_readWhile, length_comment, length_number, length_string, word]

/-- The next token, or the fault in its place. At the end of a text that is the token for its end,
again and again. -/
def nextToken (separator : Separator) (lexer : Lexer) : Except Error Token × Lexer :=
  match _found : lexer.read with
  | some (c, next) =>
      let turned := next.turn separator lexer.position c
      match turned.1 with
      | .ok none => turned.2.nextToken separator
      | .ok (some token) => (.ok token, turned.2)
      | .error fault => (.error fault, turned.2)
  | none => (.ok ⟨.endOfText, none, lexer.position⟩, lexer)
  termination_by lexer.ahead.length
  decreasing_by
    exact Nat.lt_of_le_of_lt (length_turn separator lexer.position c next) (length_of_read _found)

end Lexer

/-- The tokens of a text up to its end or its first fault, and the lexer behind them. -/
structure Scan where
  tokens : List Token
  /-- The fault that ended the scan before the end of the text. -/
  fault : Option Error
  reached : Lexer

/-- Reads tokens, the last of which is the end of the text unless there is a fault. A token takes at
least one character, so that one round for each character and one for the end suffice. -/
def scanFrom (separator : Separator) : (rounds : Nat) → Lexer → Scan
  | 0, lexer => ⟨[], none, lexer⟩
  | rounds + 1, lexer =>
      match lexer.nextToken separator with
      | (.error fault, next) => ⟨[], some fault, next⟩
      | (.ok token, next) =>
          if token.kind = .endOfText then ⟨[token], none, next⟩
          else
            let later := scanFrom separator rounds next
            { later with tokens := token :: later.tokens }

/-- Reads a text to its end or its first fault. -/
def scan (separator : Separator) (text : String) : Scan :=
  scanFrom separator (text.toList.length + 1) (.ofText text)

/-- All tokens of a text, with the token for its end, if it has no fault. -/
def tokenize (separator : Separator) (text : String) : Except Error (List Token) :=
  match (scan separator text).fault with
  | some fault => .error fault
  | none => .ok (scan separator text).tokens

end GraphStore.Query
