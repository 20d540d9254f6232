import GraphStore.Query.Lexer

/-!
# Lexemes

What a text begins with, told by its characters alone: layout to be skipped, a token, or a fault,
and how many characters it takes. No character is pushed back here, and every position follows from
the characters before it.
-/

set_option autoImplicit false

namespace GraphStore.Query

open GraphStore.Text

/-- What a text begins with. Lengths and offsets count characters from the start of the lexeme. -/
inductive Lexeme where
  /-- Blank space or a comment. -/
  | layout (length : Nat)
  | token (kind : TokenKind) (text : Option String) (length : Nat)
  /-- No token begins here. The fault lies at `offset`; `length` characters had to be read. -/
  | fault (message : String) (offset length : Nat)
deriving Repr, DecidableEq

/-!
## Comments
-/

/-- The number of characters up to the end of a comment, given how many are read already, how many
comments are open, and the last character that does not belong to a mark. -/
def blockCommentLength (read depth : Nat) (previous : Char) : List Char → Option Nat
  | [] => none
  | c :: rest =>
      if previous = '/' && c = '*' then blockCommentLength (read + 1) (depth + 1) '\x00' rest
      else if previous = '*' && c = '/' then
        if depth ≤ 1 then some (read + 1) else blockCommentLength (read + 1) (depth - 1) '\x00' rest
      else blockCommentLength (read + 1) depth c rest

/-- What follows a slash. A line comment ends before its line break. -/
def comment : List Char → Lexeme
  | '/' :: rest => .layout (2 + (rest.takeWhile (· ≠ '\n')).length)
  | '*' :: rest =>
      match blockCommentLength 2 1 '\x00' rest with
      | some length => .layout length
      | none => .fault "Unterminated comment" 0 (2 + rest.length)
  | [] => .fault "Unexpected character '/'" 0 1
  | _ :: _ => .fault "Unexpected character '/'" 0 2

/-!
## Words and numbers
-/

/-- A word, which is a keyword or a name. -/
def word (first : Char) (rest : List Char) : Lexeme :=
  let letters := first :: rest.takeWhile isWordCharacter
  let text := String.ofList letters
  .token ((TokenKind.keyword? text).getD .name) (some text) letters.length

def number (first : Char) (rest : List Char) : Lexeme :=
  let digits := first :: rest.takeWhile Char.isDigit
  let text := String.ofList digits
  match rest.dropWhile Char.isDigit with
  | [] => .token .number (some text) digits.length
  | c :: _ =>
      if c.isAlpha || c = '_' then
        .fault s!"Unexpected {quotedCharacter c} immediately after number {text}" digits.length
          (digits.length + 1)
      else .token .number (some text) digits.length

/-!
## Strings
-/

/-- What the characters behind a backslash stand for, or why they stand for nothing, and how many
they are. -/
def escape : List Char → Except String Char × Nat
  | [] => (.error "Unterminated string", 0)
  | '"' :: _ => (.ok '"', 1)
  | '\\' :: _ => (.ok '\\', 1)
  | '/' :: _ => (.ok '/', 1)
  | 'n' :: _ => (.ok '\n', 1)
  | 'r' :: _ => (.ok '\r', 1)
  | 't' :: _ => (.ok '\t', 1)
  | '0' :: _ => (.ok '\x00', 1)
  | 'x' :: rest =>
      let digits := (rest.take maxEscapeDigits).takeWhile isHexDigit
      let code := hexValue digits
      if digits.isEmpty then (.error "Expected hex digits after \\x", 1)
      else if code.isValidChar then (.ok (Char.ofNat code), 1 + digits.length)
      else
        let shown := String.ofList ((Nat.toDigits 16 code).map Char.toUpper)
        (.error s!"\\x{shown} is not a valid character", 1 + digits.length)
  | other :: _ => (.error s!"Invalid escape sequence \\{other}", 1)

/-- The rest of a string, given the number of characters read and the text so far, last character
first. -/
def stringBody (read : Nat) (text : List Char) : List Char → Lexeme
  | [] => .fault "Unterminated string" 0 read
  | c :: rest =>
      if c = '"' then .token .string (some (String.ofList text.reverse)) (read + 1)
      else if c = '\\' then
        let length := (escape rest).2
        match (escape rest).1 with
        | .ok character => stringBody (read + 1 + length) (character :: text) (rest.drop length)
        | .error message => .fault message read (read + 1 + length)
      else if isControl c then
        .fault s!"Control character {quotedCharacter c} in string" read (read + 1)
      else stringBody (read + 1) (c :: text) rest
  termination_by characters => characters.length
  decreasing_by all_goals simp only [List.length_cons, List.length_drop]; omega

/-!
## Lexemes
-/

def lexeme (separator : Separator) (first : Char) (rest : List Char) : Lexeme :=
  if first = '\n' && separator.acceptsNewline then .token .endOfStatement none 1
  else if isBlank first then .layout 1
  else if first = '/' then comment rest
  else if first = ';' && separator.acceptsSemicolon then .token .endOfStatement none 1
  else if first = '{' then .token .openBrace none 1
  else if first = '}' then .token .closeBrace none 1
  else if first = '[' then .token .openBracket none 1
  else if first = ']' then .token .closeBracket none 1
  else if first = ',' then .token .comma none 1
  else if first = '=' then .token .assign none 1
  else if first = '"' then stringBody 1 [] rest
  else if first.isAlpha then word first rest
  else if first.isDigit then number first rest
  else if (first = '-' || first = '+') && (rest.head?.any Char.isDigit) then number first rest
  else .fault s!"Unexpected character {quotedCharacter first}" 0 1

/-- A place in a text: the characters that are not read yet and the position of the first. -/
structure Cursor where
  rest : List Char
  position : Position
deriving Repr, DecidableEq

namespace Cursor

def ofText (text : String) : Cursor := ⟨text.toList, .start⟩

/-- The position of the character `offset` places behind the cursor. -/
def positionAt (cursor : Cursor) (offset : Nat) : Position :=
  (cursor.rest.take offset).foldl Position.after cursor.position

/-- The cursor behind the next `length` characters. -/
def advance (cursor : Cursor) (length : Nat) : Cursor :=
  ⟨cursor.rest.drop length, cursor.positionAt length⟩

/-- The next token, or the fault in its place, and the cursor behind all that was read. At the end
of a text that is the token for its end, again and again. -/
def nextToken (separator : Separator) : Cursor → Except Error Token × Cursor
  | ⟨[], position⟩ => (.ok ⟨.endOfText, none, position⟩, ⟨[], position⟩)
  | ⟨first :: rest, position⟩ =>
      let cursor : Cursor := ⟨first :: rest, position⟩
      match lexeme separator first rest with
      | .layout length => nextToken separator (cursor.advance (max 1 length))
      | .token kind text length => (.ok ⟨kind, text, position⟩, cursor.advance length)
      | .fault message offset length =>
          (.error (.syntaxError (cursor.positionAt offset) message), cursor.advance length)
  termination_by cursor => cursor.rest.length
  decreasing_by simp only [Cursor.advance, List.length_drop, List.length_cons]; omega

end Cursor

end GraphStore.Query
